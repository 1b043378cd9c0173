import Fumox.SessionCookies
import Fumox.TransitionRuns

/-!
Logins, logouts, token rotations and session checks as interleaved steps over one epoch row and one
live token, with every access to the row free to fail; the runs in which a revoked session never
verifies again.
-/

namespace SessionRevocation

open RustText ProxyFingerprint SessionCookies TransitionRuns

structure Server where
  hmac : List UInt8 → List UInt8 → List UInt8
  sessionKey : List UInt8
  envToken : Option Text

/-- A cookie that a login has issued: the epoch that it was minted with, and the age of the token
that authorised it. -/
structure Cookie where
  value : Text
  epoch : ℕ
  age : ℕ
  deriving DecidableEq, Repr

/-- A settings save whose bump has succeeded: the age of the token that it replaces, and the epoch
after the bump. -/
structure Rotation where
  age : ℕ
  epoch : ℕ
  deriving DecidableEq, Repr

inductive Outcome where
  | stored | unreported | failed
  deriving DecidableEq, Repr

inductive Save where
  | idle
  | written (submitted : Text)
  | compared (rotates : Option ℕ)
  | bumped (rotation : Option Rotation)
  deriving DecidableEq, Repr

/-- The token age counts the changes of the live token. `revoked` keeps the epochs that the
completed bumps led to, `rotations` the saves that have completed with a new live token. -/
structure Panel where
  epochRow : Option Text
  fileToken : Text
  liveToken : Text
  tokenAge : ℕ
  logins : ℕ → Option ℕ
  saves : ℕ → Save
  issued : List Cookie
  revoked : List ℕ
  rotations : List Rotation

inductive Event where
  | logout (outcome : Outcome)
  | authorise (login : ℕ) (token : Text)
  | issue (login : ℕ) (now : ℤ) (ttl : ℕ) (readFails : Bool)
  | write (save : ℕ) (posted : Text)
  | compare (save : ℕ)
  | bump (save : ℕ) (outcome : Outcome)
  | refresh (save : ℕ) (loads : Bool)
  | check (value : Text) (now : ℤ) (readFails : Bool)

namespace Panel

def epoch (p : Panel) : ℕ := sessionEpoch (some p.epochRow)

def readEpoch (p : Panel) (readFails : Bool) : ℕ :=
  if readFails then sessionEpoch none else p.epoch

def increment (p : Panel) : Panel :=
  { p with epochRow := some (metaIncrement p.epochRow) }

def revokeAll (p : Panel) : Outcome → Panel
  | .stored => { p.increment with revoked := p.increment.epoch :: p.revoked }
  | .unreported => p.increment
  | .failed => p

def goto (p : Panel) (save : ℕ) (state : Save) : Panel :=
  { p with saves := fun i => if i = save then state else p.saves i }

def rotation (p : Panel) (save : ℕ) : Option Rotation :=
  match p.saves save with
  | .bumped rotation => rotation
  | _ => none

def reload (server : Server) (p : Panel) (loads : Bool) : Panel :=
  let token := if loads then server.envToken.getD p.fileToken else p.liveToken
  { p with liveToken := token
           tokenAge := if token = p.liveToken then p.tokenAge else p.tokenAge + 1 }

def completes (server : Server) (p : Panel) (save : ℕ) (loads : Bool) : Option Rotation :=
  (p.rotation save).filter fun r => r.age < (p.reload server loads).tokenAge

end Panel

section Steps

variable (server : Server)

def accepts (p : Panel) (value : Text) (now : ℤ) (readFails : Bool) : Bool :=
  (verifySession server.hmac server.sessionKey value (p.readEpoch readFails) now).isSome

def Enabled (p : Panel) : Event → Prop
  | .authorise login token => p.logins login = none ∧ p.liveToken ≠ [] ∧ token = p.liveToken
  | .issue login .. => (p.logins login).isSome = true
  | .write save _ => p.saves save = .idle
  | .compare save =>
    match p.saves save with
    | .written _ => True
    | _ => False
  | .bump save _ =>
    match p.saves save with
    | .compared (some _) => True
    | _ => False
  | .refresh save _ =>
    match p.saves save with
    | .compared none => True
    | .bumped _ => True
    | _ => False
  | _ => True

def next (p : Panel) : Event → Panel
  | .logout outcome => p.revokeAll outcome
  | .authorise login _ =>
    { p with logins := fun i => if i = login then some p.tokenAge else p.logins i }
  | .issue login now ttl readFails =>
    match p.logins login with
    | none => p
    | some age =>
      let epoch := p.readEpoch readFails
      let value := issueSession server.hmac server.sessionKey ttl epoch now
      { p with logins := fun i => if i = login then none else p.logins i
               issued := ⟨value, epoch, age⟩ :: p.issued }
  | .write save posted =>
    -- an empty field keeps the current token
    let p' := if trim posted = [] then p else { p with fileToken := trim posted }
    p'.goto save (.written (trim posted))
  | .compare save =>
    match p.saves save with
    | .written submitted =>
      p.goto save (.compared
        (if submitted ≠ [] ∧ submitted ≠ p.liveToken then some p.tokenAge else none))
    | _ => p
  | .bump save outcome =>
    match p.saves save with
    | .compared (some age) =>
      let p' := p.revokeAll outcome
      p'.goto save (.bumped (if outcome = .stored then some ⟨age, p'.epoch⟩ else none))
    | _ => p
  | .refresh save loads =>
    let p' := p.reload server loads
    { p'.goto save .idle with rotations := (p.completes server save loads).toList ++ p.rotations }
  | .check .. => p

/-- The row is absent or written by increments. Cookies of an earlier start of the server may be
around, under epochs that the row has reached. -/
def Initial (p : Panel) : Prop :=
  ∃ n, EpochRow n p.epochRow ∧ (∀ e ∈ p.revoked, 0 < e ∧ e ≤ n) ∧
    (∀ c ∈ p.issued, c.epoch ≤ n ∧
      ∃ ttl now, c.value = issueSession server.hmac server.sessionKey ttl c.epoch now) ∧
    p.rotations = [] ∧ (∀ i, p.logins i = none) ∧ ∀ i, p.saves i = .idle

def panel : System Panel Event := ⟨Initial server, Enabled, next server⟩

/-- The steps that keep revoked sessions out. A bump stays within 64 bits; a check whose read fails
presents no cookie of epoch 0 once a bump has completed; a login authorised by a token that a
rotation replaces does not read the epoch after the bump of that rotation. -/
def Careful (p : Panel) : Event → Prop
  | .logout outcome => outcome = .failed ∨ p.epoch + 1 < 2 ^ 63
  | .bump _ outcome => outcome = .failed ∨ p.epoch + 1 < 2 ^ 63
  | .issue login _ _ readFails =>
    readFails = false → ∀ r ∈ p.rotations, ∀ age ∈ p.logins login, r.age < age
  | .refresh save loads =>
    ∀ r ∈ p.completes server save loads, ∀ c ∈ p.issued, c.age ≤ r.age → c.epoch < r.epoch
  | .check value _ readFails =>
    readFails = true → p.revoked ≠ [] → ∀ c ∈ p.issued, c.value = value → c.epoch ≠ 0
  | _ => True

structure Sound (p : Panel) : Prop where
  row : ∃ n, EpochRow n p.epochRow
  revoked : ∀ e ∈ p.revoked, 0 < e ∧ e ≤ p.epoch
  minted : ∀ c ∈ p.issued, c.epoch ≤ p.epoch ∧
    ∃ ttl now, c.value = issueSession server.hmac server.sessionKey ttl c.epoch now
  bumped : ∀ save r, p.rotation save = some r → r.epoch ∈ p.revoked
  rotations : ∀ r ∈ p.rotations, r.epoch ∈ p.revoked ∧
    ∀ c ∈ p.issued, c.age ≤ r.age → c.epoch < r.epoch

end Steps

section Soundness

variable {server : Server} {p : Panel}

theorem epoch_row {n : ℕ} (h : EpochRow n p.epochRow) : p.epoch = n :=
  sessionEpoch_row h

theorem Sound.increment_row (h : Sound server p) (hroom : p.epoch + 1 < 2 ^ 63) :
    EpochRow (p.epoch + 1) p.increment.epochRow ∧ p.increment.epoch = p.epoch + 1 := by
  obtain ⟨n, hrow⟩ := h.row
  rw [epoch_row hrow] at hroom ⊢
  have hnext := hrow.increment hroom
  exact ⟨hnext, epoch_row hnext⟩

theorem Sound.increment (h : Sound server p) (hroom : p.epoch + 1 < 2 ^ 63) :
    Sound server p.increment := by
  obtain ⟨hrow, hepoch⟩ := h.increment_row hroom
  constructor
  · exact ⟨_, hrow⟩
  · intro e he
    have hold := h.revoked e he
    omega
  · intro c hc
    obtain ⟨hle, hvalue⟩ := h.minted c hc
    exact ⟨by omega, hvalue⟩
  · exact h.bumped
  · exact h.rotations

theorem Sound.revokeAll (h : Sound server p) {outcome : Outcome}
    (hroom : outcome = .failed ∨ p.epoch + 1 < 2 ^ 63) : Sound server (p.revokeAll outcome) := by
  cases outcome with
  | failed => exact h
  | unreported => exact h.increment (hroom.resolve_left (by decide))
  | stored =>
    have hroom := hroom.resolve_left (by decide)
    have hnext := h.increment hroom
    obtain ⟨-, hepoch⟩ := h.increment_row hroom
    constructor
    · exact hnext.row
    · intro e he
      rcases List.mem_cons.mp he with rfl | he
      · exact ⟨by omega, le_rfl⟩
      · exact hnext.revoked e he
    · exact hnext.minted
    · intro save r hr
      exact List.mem_cons_of_mem _ (h.bumped save r hr)
    · intro r hr
      obtain ⟨hmem, hold⟩ := h.rotations r hr
      exact ⟨List.mem_cons_of_mem _ hmem, hold⟩

theorem Sound.goto (h : Sound server p) {save : ℕ} {state : Save}
    (hstate : ∀ r, state = .bumped (some r) → r.epoch ∈ p.revoked) :
    Sound server (p.goto save state) := by
  constructor
  · exact h.row
  · exact h.revoked
  · exact h.minted
  · intro i r hr
    by_cases hi : i = save
    · have hsaves : (p.goto save state).saves i = state := if_pos hi
      unfold Panel.rotation at hr
      rw [hsaves] at hr
      cases state with
      | bumped rotation => exact hstate r (congrArg Save.bumped hr)
      | _ => cases hr
    · have hsaves : (p.goto save state).saves i = p.saves i := if_neg hi
      have hsame : (p.goto save state).rotation i = p.rotation i := by
        unfold Panel.rotation
        rw [hsaves]
      exact h.bumped i r (hsame ▸ hr)
  · exact h.rotations

theorem Sound.reload (h : Sound server p) (loads : Bool) : Sound server (p.reload server loads) :=
  ⟨h.row, h.revoked, h.minted, h.bumped, h.rotations⟩

theorem readEpoch_le (readFails : Bool) : p.readEpoch readFails ≤ p.epoch := by
  unfold Panel.readEpoch
  split
  · exact Nat.zero_le _
  · exact le_rfl

theorem Sound.init (h : Initial server p) : Sound server p := by
  obtain ⟨n, hrow, hrevoked, hissued, hrotations, -, hsaves⟩ := h
  have hepoch := epoch_row hrow
  constructor
  · exact ⟨n, hrow⟩
  · intro e he
    have hold := hrevoked e he
    omega
  · intro c hc
    obtain ⟨hle, hvalue⟩ := hissued c hc
    exact ⟨by omega, hvalue⟩
  · intro save r hr
    unfold Panel.rotation at hr
    rw [hsaves save] at hr
    cases hr
  · intro r hr
    rw [hrotations] at hr
    exact absurd hr List.not_mem_nil

theorem Sound.step (h : Sound server p) {e : Event} (henabled : Enabled p e)
    (hok : Careful server p e) : Sound server (next server p e) := by
  cases e with
  | logout outcome => exact h.revokeAll hok
  | authorise login token => exact ⟨h.row, h.revoked, h.minted, h.bumped, h.rotations⟩
  | issue login now ttl readFails =>
    cases hlogin : p.logins login with
    | none =>
      have hnext : next server p (.issue login now ttl readFails) = p := by
        simp only [next, hlogin]
      rw [hnext]
      exact h
    | some age =>
      simp only [next, hlogin]
      constructor
      · exact h.row
      · exact h.revoked
      · intro c hc
        rcases List.mem_cons.mp hc with rfl | hc
        · exact ⟨readEpoch_le readFails, ttl, now, rfl⟩
        · exact h.minted c hc
      · exact h.bumped
      · intro r hr
        obtain ⟨hmem, hold⟩ := h.rotations r hr
        refine ⟨hmem, ?_⟩
        intro c hc hage
        rcases List.mem_cons.mp hc with rfl | hc
        · cases readFails with
          | true => exact (h.revoked r.epoch hmem).1
          | false =>
            have hlater : r.age < age := hok rfl r hr age hlogin
            have hsame : age ≤ r.age := hage
            omega
        · exact hold c hc hage
  | write save posted =>
    simp only [next]
    by_cases hempty : trim posted = []
    · rw [if_pos hempty]
      exact h.goto fun r hr => by cases hr
    · rw [if_neg hempty]
      have hfile : Sound server { p with fileToken := trim posted } :=
        ⟨h.row, h.revoked, h.minted, h.bumped, h.rotations⟩
      exact hfile.goto fun r hr => by cases hr
  | compare save =>
    simp only [next]
    split
    · exact h.goto fun r hr => by cases hr
    · exact h
  | bump save outcome =>
    simp only [next]
    split
    next age hsave =>
      refine (h.revokeAll hok).goto ?_
      intro r hr
      cases outcome with
      | stored =>
        obtain rfl := Option.some.inj (Save.bumped.inj hr)
        exact List.mem_cons_self
      | unreported => cases hr
      | failed => cases hr
    · exact h
  | refresh save loads =>
    have hgoto : Sound server ((p.reload server loads).goto save .idle) :=
      (h.reload loads).goto fun r hr => by cases hr
    constructor
    · exact hgoto.row
    · exact hgoto.revoked
    · exact hgoto.minted
    · exact hgoto.bumped
    · intro r hr
      rcases List.mem_append.mp hr with hr | hr
      · have hcompletes := Option.mem_toList.mp hr
        have hrotation := (Option.mem_filter_iff.mp hcompletes).1
        exact ⟨h.bumped save r hrotation, hok r hcompletes⟩
      · exact h.rotations r hr
  | check value now readFails => exact h

theorem sound_of_reachable (h : Reachable (panel server) (Careful server) p) : Sound server p :=
  h.invariant (Sound server) (fun _ => Sound.init) fun _ _ hsound => hsound.step

theorem Sound.epoch_eq (h : Sound server p) (hfree : CollisionFree server.hmac) {c : Cookie}
    (hc : c ∈ p.issued) {now : ℤ} {readFails : Bool}
    (haccepts : accepts server p c.value now readFails = true) :
    p.readEpoch readFails = c.epoch := by
  obtain ⟨hle, ttl, minted, hvalue⟩ := h.minted c hc
  obtain ⟨n, hrow⟩ := h.row
  have hepoch := epoch_row hrow
  have hroom : n < 2 ^ 63 := hrow.1
  have hread := readEpoch_le (p := p) readFails
  obtain ⟨expires, hverify⟩ := Option.isSome_iff_exists.mp haccepts
  rw [hvalue] at hverify
  exact epoch_of_verify hfree (by omega) (by omega) hverify

/-- In every run of careful steps: a check accepts no cookie minted before a completed bump, nor
one that was authorised by the token that a completed rotation has replaced, and every applied
bump raises the epoch by one. The check is taken at its read of the epoch, and may be decided at
any later time. -/
theorem revoked_never_verifies (hfree : CollisionFree server.hmac)
    (h : Reachable (panel server) (Careful server) p) :
    (∀ value now readFails, Careful server p (.check value now readFails) →
        accepts server p value now readFails = true → ∀ c ∈ p.issued, c.value = value →
          (∀ e ∈ p.revoked, e ≤ c.epoch) ∧ ∀ r ∈ p.rotations, r.age < c.age) ∧
      ∀ outcome, outcome ≠ .failed → Careful server p (.logout outcome) →
        (p.revokeAll outcome).epoch = p.epoch + 1 := by
  have hsound := sound_of_reachable h
  constructor
  · rintro value now readFails hok haccepts c hc rfl
    have hepoch := hsound.epoch_eq hfree hc haccepts
    cases readFails with
    | true =>
      have hzero : c.epoch = 0 := hepoch.symm
      have hnone : p.revoked = [] := by
        by_contra hne
        exact hok rfl hne c hc rfl hzero
      constructor
      · intro e he
        rw [hnone] at he
        exact absurd he List.not_mem_nil
      · intro r hr
        have hmem := (hsound.rotations r hr).1
        rw [hnone] at hmem
        exact absurd hmem List.not_mem_nil
    | false =>
      have hcurrent : p.epoch = c.epoch := hepoch
      constructor
      · intro e he
        have hle := (hsound.revoked e he).2
        omega
      · intro r hr
        obtain ⟨hmem, hold⟩ := hsound.rotations r hr
        have hle := (hsound.revoked r.epoch hmem).2
        by_contra hage
        have hlt := hold c hc (by omega)
        omega
  · intro outcome hne hok
    have hroom : p.epoch + 1 < 2 ^ 63 := hok.resolve_left hne
    have hepoch := (hsound.increment_row hroom).2
    cases outcome with
    | failed => exact absurd rfl hne
    | unreported => exact hepoch
    | stored => exact hepoch

end Soundness

section Samples

def pairCode (k m : List UInt8) : List UInt8 :=
  k.flatMap (fun b => [1, b]) ++ 0 :: m

theorem pairCode_injective {k k' m m' : List UInt8} (h : pairCode k m = pairCode k' m') :
    k = k' ∧ m = m' := by
  induction k generalizing k' with
  | nil =>
    cases k' with
    | nil => exact ⟨rfl, (List.cons.inj h).2⟩
    | cons b k' => exact absurd (List.cons.inj h).1 (by decide)
  | cons b k ih =>
    cases k' with
    | nil => exact absurd (List.cons.inj h).1 (by decide)
    | cons b' k' =>
      obtain ⟨-, htail⟩ := List.cons.inj h
      obtain ⟨rfl, hrest⟩ := List.cons.inj htail
      obtain ⟨rfl, rfl⟩ := ih hrest
      exact ⟨rfl, rfl⟩

def sampleKey : List UInt8 := List.replicate 32 7

def sampleMac (k m : List UInt8) : List UInt8 :=
  let key₀ := [111, 153, 199, 245, 25, 100, 251, 204, 68, 33, 100, 213, 59, 95, 169, 220, 146, 122,
    118, 95, 12, 181, 207, 60, 188, 23, 96, 220, 40, 59, 208, 180]
  let key₁ := [201, 95, 86, 56, 26, 199, 210, 174, 10, 87, 168, 136, 160, 180, 199, 200, 60, 184,
    141, 119, 116, 78, 174, 106, 7, 87, 154, 62, 0, 184, 78, 47]
  tableDigest [
    (pairCode sampleKey (beBytes 0), key₀),
    (pairCode sampleKey (beBytes 1), key₁),
    (pairCode key₀ (bytes "1700003600"),
      [197, 49, 26, 235, 152, 185, 101, 24, 143, 187, 144, 50, 2, 13, 136, 23, 48, 65, 119, 133, 31,
        111, 159, 191, 244, 174, 10, 70, 97, 145, 255, 58]),
    (pairCode key₁ (bytes "1700003600"),
      [42, 172, 71, 57, 212, 228, 237, 135, 158, 239, 132, 26, 134, 111, 124, 252, 91, 158, 26, 152,
        177, 252, 58, 239, 51, 225, 7, 96, 37, 177, 216, 23])] (pairCode k m)

theorem sampleMac_collisionFree : CollisionFree sampleMac := by
  intro k k' m m' h
  exact pairCode_injective (tableDigest_injective (by decide) (by decide) h)

def sampleServer : Server := ⟨sampleMac, sampleKey, none⟩

def samplePanel : Panel where
  epochRow := none
  fileToken := "old"
  liveToken := "old"
  tokenAge := 0
  logins := fun _ => none
  saves := fun _ => .idle
  issued := []
  revoked := []
  rotations := []

theorem samplePanel_reachable {Ok : Panel → Event → Prop} :
    Reachable (panel sampleServer) Ok samplePanel := by
  apply Reachable.init
  refine ⟨0, ⟨by decide, .inr ⟨rfl, rfl⟩⟩, ?_, ?_, rfl, fun _ => rfl, fun _ => rfl⟩
  · intro e he
    exact absurd he List.not_mem_nil
  · intro c hc
    exact absurd hc List.not_mem_nil

def loginLogout : List Event :=
  [.authorise 0 "old", .issue 0 1700000000 3600 false, .logout .stored]

/-- A login that is authorised before a save replaces its token, and reads the epoch after the bump
of that save. -/
def loginAcrossRotation : List Event :=
  [.authorise 0 "old", .write 0 "new", .compare 0, .bump 0 .stored,
    .issue 0 1700000000 3600 false, .refresh 0 true]

def after (events : List Event) : Panel :=
  events.foldl (next sampleServer) samplePanel

theorem reachable_loginLogout :
    Reachable (panel sampleServer) (Careful sampleServer) (after loginLogout) := by
  refine samplePanel_reachable.execute ⟨?_, trivial, rfl, ?_, trivial, .inr (by decide), trivial⟩
  · exact ⟨rfl, by decide, rfl⟩
  · intro _ r hr
    exact absurd hr List.not_mem_nil

/-- After the logout a check whose read succeeds refuses the cookie. -/
theorem revoked_never_verifies_sample :
    ∃ c ∈ (after loginLogout).issued,
      accepts sampleServer (after loginLogout) c.value 1700000100 false = false := by
  obtain ⟨c, hc⟩ := List.exists_mem_of_ne_nil (after loginLogout).issued (by decide)
  refine ⟨c, hc, ?_⟩
  by_contra haccepts
  have hrevoked := ((revoked_never_verifies sampleMac_collisionFree reachable_loginLogout).1 c.value
    1700000100 false (fun h => absurd h (by decide)) (eq_true_of_ne_false haccepts) c hc rfl).1
  have hle : 1 ≤ c.epoch := hrevoked 1 (by decide)
  have hepoch : ∀ c ∈ (after loginLogout).issued, c.epoch = 0 := by decide
  have hzero := hepoch c hc
  omega

/-- A check whose read fails accepts the cookie of epoch 0 after the logout, and a cookie that the
old token has authorised is accepted after the rotation. -/
theorem revoked_cookies_verify :
    CollisionFree sampleServer.hmac ∧
      (∃ p, Reachable (panel sampleServer) Any p ∧ ∃ c ∈ p.issued, ∃ e ∈ p.revoked, c.epoch < e ∧
        accepts sampleServer p c.value 1700000100 true = true) ∧
      ∃ p, Reachable (panel sampleServer) Any p ∧ ∃ c ∈ p.issued, ∃ r ∈ p.rotations,
        c.age ≤ r.age ∧ accepts sampleServer p c.value 1700000100 false = true := by
  refine ⟨sampleMac_collisionFree, ?_, ?_⟩
  · refine ⟨after loginLogout, reachable_loginLogout.weaken fun _ _ _ => trivial, ?_⟩
    decide +kernel
  · refine ⟨after loginAcrossRotation, ?_, ?_⟩
    · apply samplePanel_reachable.execute
      refine ⟨⟨rfl, by decide, rfl⟩, trivial, rfl, trivial, trivial, trivial, trivial, trivial, rfl,
        trivial, trivial, trivial, trivial⟩
    · decide +kernel

end Samples

end SessionRevocation
