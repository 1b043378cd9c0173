import Fumox.JsonValue
import Fumox.TransitionRuns

/-!
The fixed-window rate limiter: a cache of counters that live for one window, the requests that hit
them, and the layers that give a hit back.  Every atomic access of a request is a step of its own.
-/

namespace RateLimiter

open RustText JsonValue TransitionRuns

inductive Layer where
  | adminLimiter | loginLimiter | all | authFailures
  deriving DecidableEq, Repr

/-- The answer of the inner layers to a request; on a 403 the public layer asks the window of
failures, too. -/
structure Answer where
  status : ℕ
  failureAllowed : Bool := true
  deriving DecidableEq, Repr

/-- When `rate_limit` and `public_rate_limit` give a counted hit back. -/
def refundDue : Layer → Answer → Bool
  | .adminLimiter, answer | .loginLimiter, answer => answer.status = 429
  | .all, answer => answer.status = 403 && !answer.failureAllowed
  | .authFailures, _ => false

structure Limiter where
  layer : Layer
  limit : ℕ
  window : ℕ
  keyOf : ℕ → Text

structure Window where
  key : Text
  created : ℕ
  value : ℕ := 0
  deriving DecidableEq, Repr

/-- How far a request is; a counter is named by its place among those created. -/
inductive Phase where
  | arriving
  | counting (w : ℕ)
  | admitted (w : ℕ)
  | owing (w : ℕ)
  | holding (w held : ℕ)
  | exchanging (w held observed : ℕ)
  | done
  deriving DecidableEq, Repr

/-- What has been done to the counters: a hit, or a refund of a hit counted in `w`. -/
inductive Deed where
  | hit (request w : ℕ) (admitted : Bool)
  | refund (request w held : ℕ) (lowered : Bool)
  deriving DecidableEq, Repr

structure State where
  cache : List (Text × ℕ) := []
  windows : List Window := []
  phase : ℕ → Phase := fun _ => .arriving
  deeds : List Deed := []

def State.value (s : State) (w : ℕ) : ℕ := (s.windows[w]?.map (·.value)).getD 0

def State.keyAt (s : State) (w : ℕ) : Option Text := s.windows[w]?.map (·.key)

def State.store (s : State) (w value : ℕ) : State :=
  { s with windows := s.windows.modify w fun win => { win with value } }

def State.goto (s : State) (r : ℕ) (p : Phase) : State :=
  { s with phase := Function.update s.phase r p }

def State.record (s : State) (d : Deed) : State := { s with deeds := s.deeds ++ [d] }

inductive Event where
  /-- `allow` obtains its counter. -/
  | allow (r now : ℕ)
  /-- `allow` adds one to it. -/
  | count (r : ℕ)
  | answer (r : ℕ) (answer : Answer)
  /-- `refund` obtains its counter. -/
  | refund (r now : ℕ)
  /-- `refund` loads it. -/
  | load (r : ℕ)
  /-- One turn of the loop of `refund`; a weak exchange may fail without a reason. -/
  | exchange (r : ℕ) (spurious : Bool)
  deriving DecidableEq, Repr

section Steps

variable (c : Limiter)

def live (s : State) (key : Text) (now : ℕ) : Option ℕ :=
  (s.cache.lookup key).filter fun w =>
    s.windows[w]?.any fun win => decide (now - win.created < c.window)

/-- `try_get_with`: the live counter of a key, or a new one; the initialiser cannot fail. -/
def tryGetWith (s : State) (key : Text) (now : ℕ) : ℕ × State :=
  match live c s key now with
  | some w => (w, s)
  | none =>
    (s.windows.length,
      { s with
        cache := JsonValue.insert s.cache key s.windows.length
        windows := s.windows ++ [⟨key, now, 0⟩] })

def exchanges (s : State) (held observed : ℕ) (spurious : Bool) : Bool :=
  s.value held = observed && !spurious

def next (s : State) : Event → State
  | .allow r now =>
    let got := tryGetWith c s (c.keyOf r) now
    got.2.goto r (.counting got.1)
  | .count r =>
    match s.phase r with
    | .counting w =>
      let admitted := decide (s.value w < c.limit)
      ((s.store w ((s.value w + 1) % 2 ^ 64)).goto r (if admitted then .admitted w else .done)).record
        (.hit r w admitted)
    | _ => s
  | .answer r answer =>
    match s.phase r with
    | .admitted w => s.goto r (if refundDue c.layer answer then .owing w else .done)
    | _ => s
  | .refund r now =>
    match s.phase r with
    | .owing w =>
      let got := tryGetWith c s (c.keyOf r) now
      got.2.goto r (.holding w got.1)
    | _ => s
  | .load r =>
    match s.phase r with
    | .holding w held => s.goto r (.exchanging w held (s.value held))
    | _ => s
  | .exchange r spurious =>
    match s.phase r with
    | .exchanging w held observed =>
      if exchanges s held observed spurious then
        ((s.store held (observed - 1)).goto r .done).record (.refund r w held (observed ≠ 0))
      else s.goto r (.exchanging w held (s.value held))
    | _ => s

def Enabled (s : State) : Event → Prop
  | .allow r _ => s.phase r = .arriving
  | .count r => ∃ w, s.phase r = .counting w
  | .answer r _ => ∃ w, s.phase r = .admitted w
  | .refund r _ => ∃ w, s.phase r = .owing w
  | .load r => ∃ w held, s.phase r = .holding w held
  | .exchange r _ => ∃ w held observed, s.phase r = .exchanging w held observed

def limiter : System State Event where
  Initial s := s = {}
  Enabled := Enabled
  next := next c

/-- The window of the hit that a refund gives back, and the counter that it holds. -/
def Phase.refunding : Phase → Option (ℕ × ℕ)
  | .holding w held | .exchanging w held _ => some (w, held)
  | .arriving | .counting _ | .admitted _ | .owing _ | .done => none

/-- A refund finds the counter of its own hit, one that is at zero, or none; and no hit is counted
on a counter that a refund of another window's hit holds. -/
def Timely (s : State) : Event → Prop
  | .refund r now => ∀ w held, s.phase r = .owing w → live c s (c.keyOf r) now = some held →
      held = w ∨ s.value held = 0
  | .count r => ∀ held, s.phase r = .counting held → ∀ r' w,
      (s.phase r').refunding = some (w, held) → held = w
  | _ => True

/-- The hit does not overflow its counter. -/
def Bounded (s : State) : Event → Prop
  | .count r => ∀ w, s.phase r = .counting w → s.value w + 1 < 2 ^ 64
  | _ => True

def Careful (s : State) (e : Event) : Prop := Timely c s e ∧ Bounded s e

end Steps

section Account

def hits (s : State) (w : ℕ) : ℕ :=
  s.deeds.countP fun | .hit _ w' _ => w' = w | .refund .. => false

def admittedHits (s : State) (w : ℕ) : ℕ :=
  s.deeds.countP fun | .hit _ w' admitted => w' = w && admitted | .refund .. => false

def ownRefunds (s : State) (w : ℕ) : ℕ :=
  s.deeds.countP fun | .hit .. => false | .refund _ w' held _ => w' = w && held = w

def lowered (s : State) (w : ℕ) : ℕ :=
  s.deeds.countP fun | .hit .. => false | .refund _ _ held lowered => held = w && lowered

/-- The request has touched a window of its own key. -/
def Owned (c : Limiter) (s : State) (r w : ℕ) : Prop := s.keyAt w = some (c.keyOf r)

/-- The law of a limiter: no window admits more than the limit and its own refunds, no refund
lowers another window than that of its hit, no counter wraps below zero, and a request only
touches windows of its key. -/
structure Accounts (c : Limiter) (s : State) : Prop where
  limited : ∀ w, admittedHits s w ≤ c.limit + ownRefunds s w
  credited : ∀ r w held, Deed.refund r w held true ∈ s.deeds → held = w
  exact : ∀ w, s.value w + lowered s w = hits s w
  hitOwned : ∀ r w admitted, Deed.hit r w admitted ∈ s.deeds → Owned c s r w
  refundOwned : ∀ r w held lowered, Deed.refund r w held lowered ∈ s.deeds →
    Owned c s r w ∧ Owned c s r held

end Account

section Changes

variable (s : State) (r w : ℕ) (p : Phase) (d : Deed)

@[simp] theorem value_goto (w' : ℕ) : (s.goto r p).value w' = s.value w' := rfl

@[simp] theorem value_record (w' : ℕ) : (s.record d).value w' = s.value w' := rfl

@[simp] theorem keyAt_goto (w' : ℕ) : (s.goto r p).keyAt w' = s.keyAt w' := rfl

@[simp] theorem keyAt_record (w' : ℕ) : (s.record d).keyAt w' = s.keyAt w' := rfl

@[simp] theorem keyAt_store (v w' : ℕ) : (s.store w v).keyAt w' = s.keyAt w' := by
  unfold State.keyAt State.store
  rw [List.getElem?_modify]
  cases s.windows[w']? with
  | none => rfl
  | some win =>
    by_cases hw : w = w' <;> simp [hw]

theorem value_store_ne (v : ℕ) {w' : ℕ} (h : w' ≠ w) : (s.store w v).value w' = s.value w' := by
  unfold State.value State.store
  rw [List.getElem?_modify]
  simp [Ne.symm h]

theorem value_store_self (v : ℕ) {key : Text} (h : s.keyAt w = some key) :
    (s.store w v).value w = v := by
  obtain ⟨win, hwin, -⟩ := Option.map_eq_some_iff.mp h
  unfold State.value State.store
  rw [List.getElem?_modify, hwin]
  simp

theorem phase_goto_self : (s.goto r p).phase r = p := Function.update_self ..

theorem phase_goto_ne {r' : ℕ} (h : r' ≠ r) : (s.goto r p).phase r' = s.phase r' :=
  Function.update_of_ne h ..

theorem hits_hit (admitted : Bool) (w' : ℕ) :
    hits (s.record (.hit r w admitted)) w' = hits s w' + if w = w' then 1 else 0 := by
  simp [hits, State.record, List.countP_append, List.countP_cons]

theorem hits_refund (held : ℕ) (low : Bool) (w' : ℕ) :
    hits (s.record (.refund r w held low)) w' = hits s w' := by
  simp [hits, State.record, List.countP_append]

theorem admittedHits_hit (admitted : Bool) (w' : ℕ) :
    admittedHits (s.record (.hit r w admitted)) w' =
      admittedHits s w' + if w = w' ∧ admitted = true then 1 else 0 := by
  simp [admittedHits, State.record, List.countP_append, List.countP_cons]

theorem admittedHits_refund (held : ℕ) (low : Bool) (w' : ℕ) :
    admittedHits (s.record (.refund r w held low)) w' = admittedHits s w' := by
  simp [admittedHits, State.record, List.countP_append]

theorem ownRefunds_hit (admitted : Bool) (w' : ℕ) :
    ownRefunds (s.record (.hit r w admitted)) w' = ownRefunds s w' := by
  simp [ownRefunds, State.record, List.countP_append]

theorem ownRefunds_le (w' : ℕ) : ownRefunds s w' ≤ ownRefunds (s.record d) w' := by
  simp [ownRefunds, State.record, List.countP_append]

theorem lowered_hit (admitted : Bool) (w' : ℕ) :
    lowered (s.record (.hit r w admitted)) w' = lowered s w' := by
  simp [lowered, State.record, List.countP_append]

theorem lowered_refund (held : ℕ) (low : Bool) (w' : ℕ) :
    lowered (s.record (.refund r w held low)) w' =
      lowered s w' + if held = w' ∧ low = true then 1 else 0 := by
  simp [lowered, State.record, List.countP_append, List.countP_cons]

theorem admittedHits_le : admittedHits s w ≤ hits s w := by
  apply List.countP_mono_left
  intro d _ hd
  cases d with
  | hit r w' admitted => simp_all
  | refund r w' held low => simp at hd

theorem lowered_le (h : ∀ r w held, Deed.refund r w held true ∈ s.deeds → held = w) :
    lowered s w ≤ ownRefunds s w := by
  apply List.countP_mono_left
  intro d hmem hd
  cases d with
  | hit r w' admitted => simp at hd
  | refund r w' held low =>
    obtain ⟨rfl, rfl⟩ : held = w ∧ low = true := by simpa using hd
    obtain rfl := h r w' held hmem
    simp

end Changes

def Phase.windows : Phase → List ℕ
  | .arriving | .done => []
  | .counting w | .admitted w | .owing w => [w]
  | .holding w held | .exchanging w held _ => [w, held]

/-- The requests and the cache know a counter under the key that it was created for. -/
structure Placed (c : Limiter) (s : State) : Prop where
  held : ∀ r, ∀ w ∈ (s.phase r).windows, Owned c s r w
  cached : ∀ key w, (key, w) ∈ s.cache → s.keyAt w = some key

/-- A refund that holds another counter than that of its hit holds one at zero. -/
def Harmless (s : State) : Prop :=
  ∀ r w held, (s.phase r).refunding = some (w, held) → held = w ∨ s.value held = 0

section Invariant

variable {c : Limiter} {s : State} {r w held : ℕ}

theorem placed_initial : Placed c {} where
  held := by
    intro r w hw
    exact absurd hw List.not_mem_nil
  cached := by
    intro key w hw
    exact absurd hw List.not_mem_nil

theorem accounts_initial : Accounts c {} where
  limited := fun _ => Nat.zero_le _
  credited := fun _ _ _ hd => absurd hd List.not_mem_nil
  exact := fun _ => rfl
  hitOwned := fun _ _ _ hd => absurd hd List.not_mem_nil
  refundOwned := fun _ _ _ _ hd => absurd hd List.not_mem_nil

/-- A step that touches no counter and does nothing leaves the account. -/
theorem Accounts.carry {s' : State} (h : Accounts c s) (hdeeds : s'.deeds = s.deeds)
    (hvalue : ∀ w, s'.value w = s.value w)
    (hkeys : ∀ w key, s.keyAt w = some key → s'.keyAt w = some key) : Accounts c s' := by
  obtain ⟨hlimited, hcredited, hexact, hhit, hrefund⟩ := h
  constructor
  · simpa [admittedHits, ownRefunds, hdeeds] using hlimited
  · simpa [hdeeds] using hcredited
  · simpa [lowered, hits, hdeeds, hvalue] using hexact
  · intro r w admitted hd
    exact hkeys w _ (hhit r w admitted (hdeeds ▸ hd))
  · intro r w held low hd
    obtain ⟨hw, hheld⟩ := hrefund r w held low (hdeeds ▸ hd)
    exact ⟨hkeys w _ hw, hkeys held _ hheld⟩

theorem tryGetWith_spec (hcached : ∀ key w, (key, w) ∈ s.cache → s.keyAt w = some key) (key : Text)
    (now : ℕ) :
    (tryGetWith c s key now).2.phase = s.phase ∧
      (tryGetWith c s key now).2.deeds = s.deeds ∧
      (∀ w, (tryGetWith c s key now).2.value w = s.value w) ∧
      (∀ w k, s.keyAt w = some k → (tryGetWith c s key now).2.keyAt w = some k) ∧
      (∀ k w, (k, w) ∈ (tryGetWith c s key now).2.cache →
        (tryGetWith c s key now).2.keyAt w = some k) ∧
      (tryGetWith c s key now).2.keyAt (tryGetWith c s key now).1 = some key := by
  unfold tryGetWith
  cases hlive : live c s key now with
  | some w =>
    refine ⟨rfl, rfl, fun _ => rfl, fun _ _ h => h, hcached, ?_⟩
    obtain ⟨hlookup, -⟩ := Option.filter_eq_some_iff.mp hlive
    obtain ⟨before, after, hcache, -⟩ := List.lookup_eq_some_iff.mp hlookup
    exact hcached key w (by simp [hcache])
  | none =>
    have hkeys : ∀ w k, s.keyAt w = some k →
        (s.windows ++ [⟨key, now, 0⟩])[w]?.map (·.key) = some k := by
      intro w k hw
      obtain ⟨win, hwin, hk⟩ := Option.map_eq_some_iff.mp hw
      obtain ⟨hlt, -⟩ := List.getElem?_eq_some_iff.mp hwin
      rw [List.getElem?_append_left hlt, hwin, Option.map_some, hk]
    have hnew : (s.windows ++ [(⟨key, now, 0⟩ : Window)])[s.windows.length]?.map (·.key) =
        some key := by
      rw [List.getElem?_concat_length, Option.map_some]
    refine ⟨rfl, rfl, ?_, hkeys, ?_, hnew⟩
    · intro w
      unfold State.value
      dsimp only
      rcases Nat.lt_trichotomy w s.windows.length with hlt | heq | hgt
      · rw [List.getElem?_append_left hlt]
      · rw [heq, List.getElem?_concat_length, List.getElem?_eq_none (Nat.le_refl _)]
        rfl
      · rw [List.getElem?_eq_none (by simp; omega), List.getElem?_eq_none (by omega)]
    · intro k w hw
      rcases mem_of_mem_insert hw with hw | hw
      · exact hkeys w k (hcached k w hw)
      · obtain ⟨rfl, rfl⟩ := Prod.mk.inj hw
        exact hnew

theorem Placed.goto (h : Placed c s) {r : ℕ} {p : Phase} (hp : ∀ w ∈ p.windows, Owned c s r w) :
    Placed c (s.goto r p) := by
  refine ⟨?_, h.cached⟩
  intro r' w hw
  by_cases hr : r' = r
  · rw [hr, phase_goto_self] at hw
    rw [hr]
    exact hp w hw
  · rw [phase_goto_ne s r p hr] at hw
    exact h.held r' w hw

theorem Placed.store (h : Placed c s) (w v : ℕ) : Placed c (s.store w v) where
  held := by
    intro r w' hw
    exact (keyAt_store s w v w').trans (h.held r w' hw)
  cached := by
    intro key w' hw
    exact (keyAt_store s w v w').trans (h.cached key w' hw)

theorem Placed.record (h : Placed c s) (d : Deed) : Placed c (s.record d) := ⟨h.held, h.cached⟩

theorem Placed.obtain (h : Placed c s) {r now : ℕ} {p : ℕ → Phase}
    (hp : ∀ got, ∀ w ∈ (p got).windows, w = got ∨ Owned c s r w) :
    Placed c
      ((tryGetWith c s (c.keyOf r) now).2.goto r (p (tryGetWith c s (c.keyOf r) now).1)) := by
  obtain ⟨hphase, -, -, hkeys, hcached, hgot⟩ :=
    tryGetWith_spec (c := c) h.cached (c.keyOf r) now
  have hgotPlaced : Placed c (tryGetWith c s (c.keyOf r) now).2 := by
    refine ⟨?_, hcached⟩
    intro r' w hw
    rw [hphase] at hw
    exact hkeys w _ (h.held r' w hw)
  apply hgotPlaced.goto
  intro w hw
  rcases hp _ w hw with rfl | howned
  · exact hgot
  · exact hkeys w _ howned

theorem Accounts.obtain (h : Accounts c s) (hplaced : Placed c s) (r now : ℕ) (p : Phase) :
    Accounts c ((tryGetWith c s (c.keyOf r) now).2.goto r p) := by
  obtain ⟨-, hdeeds, hvalue, hkeys, -⟩ :=
    tryGetWith_spec (c := c) hplaced.cached (c.keyOf r) now
  exact h.carry hdeeds hvalue hkeys

theorem accounts_count (h : Accounts c s) {r w : ℕ} {p : Phase} (howned : Owned c s r w)
    (hbound : s.value w + 1 < 2 ^ 64) :
    Accounts c (((s.store w ((s.value w + 1) % 2 ^ 64)).goto r p).record
      (.hit r w (decide (s.value w < c.limit)))) := by
  have hlowered := lowered_le s w h.credited
  have hadmitted := admittedHits_le s w
  have hexact := h.exact w
  rw [Nat.mod_eq_of_lt hbound]
  constructor
  · intro w'
    rw [admittedHits_hit, ownRefunds_hit]
    have hlimited : admittedHits s w' ≤ c.limit + ownRefunds s w' := h.limited w'
    change admittedHits s w' + _ ≤ c.limit + ownRefunds s w'
    by_cases hw : w = w' ∧ decide (s.value w < c.limit) = true
    · obtain ⟨rfl, hbelow⟩ := hw
      have hroom := of_decide_eq_true hbelow
      rw [if_pos ⟨rfl, hbelow⟩]
      omega
    · rw [if_neg hw]
      exact hlimited
  · intro r' w' held hd
    rcases List.mem_append.mp hd with hd | hd
    · exact h.credited r' w' held hd
    · exact absurd (List.mem_singleton.mp hd) (by simp)
  · intro w'
    rw [value_record, value_goto, lowered_hit, hits_hit]
    change _ + lowered s w' = hits s w' + _
    by_cases hw : w = w'
    · rw [← hw, value_store_self s w _ howned, if_pos rfl]
      omega
    · rw [value_store_ne s w _ (Ne.symm hw), if_neg hw]
      exact h.exact w'
  · intro r' w' admitted hd
    refine (keyAt_store s w _ w').trans ?_
    rcases List.mem_append.mp hd with hd | hd
    · exact h.hitOwned r' w' admitted hd
    · obtain ⟨rfl, rfl, -⟩ := Deed.hit.inj (List.mem_singleton.mp hd)
      exact howned
  · intro r' w' held low hd
    rcases List.mem_append.mp hd with hd | hd
    · obtain ⟨hw, hheld⟩ := h.refundOwned r' w' held low hd
      exact ⟨(keyAt_store s w _ w').trans hw, (keyAt_store s w _ held).trans hheld⟩
    · exact absurd (List.mem_singleton.mp hd) (by simp)

theorem accounts_exchange (h : Accounts c s) {r w held : ℕ} {p : Phase} (hw : Owned c s r w)
    (hheld : Owned c s r held) (hown : held = w ∨ s.value held = 0) :
    Accounts c (((s.store held (s.value held - 1)).goto r p).record
      (.refund r w held (s.value held ≠ 0))) := by
  constructor
  · intro w'
    have hlimited := h.limited w'
    rw [admittedHits_refund]
    refine hlimited.trans (Nat.add_le_add_left ?_ _)
    exact ownRefunds_le ((s.store held (s.value held - 1)).goto r p) _ w'
  · intro r' w' held' hd
    rcases List.mem_append.mp hd with hd | hd
    · exact h.credited r' w' held' hd
    · obtain ⟨-, rfl, rfl, hlow⟩ := Deed.refund.inj (List.mem_singleton.mp hd)
      exact hown.resolve_right (of_decide_eq_true hlow.symm)
  · intro w'
    have hexact := h.exact w'
    rw [value_record, value_goto, lowered_refund, hits_refund]
    change _ + (lowered s w' + _) = hits s w'
    by_cases hsame : held = w'
    · rw [← hsame] at hexact ⊢
      rw [value_store_self s held _ hheld]
      by_cases hzero : s.value held = 0
      · simp only [hzero, ne_eq, not_true_eq_false, decide_false, and_false, if_false,
          Bool.false_eq_true]
        omega
      · simp only [hzero, ne_eq, not_false_eq_true, decide_true, and_self, if_true]
        omega
    · rw [value_store_ne s held _ (Ne.symm hsame), if_neg fun hboth => hsame hboth.1]
      exact hexact
  · intro r' w' admitted hd
    rcases List.mem_append.mp hd with hd | hd
    · exact (keyAt_store s held _ w').trans (h.hitOwned r' w' admitted hd)
    · exact absurd (List.mem_singleton.mp hd) (by simp)
  · intro r' w' held' low hd
    rcases List.mem_append.mp hd with hd | hd
    · obtain ⟨hw', hheld'⟩ := h.refundOwned r' w' held' low hd
      exact ⟨(keyAt_store s held _ w').trans hw', (keyAt_store s held _ held').trans hheld'⟩
    · obtain ⟨rfl, rfl, rfl, -⟩ := Deed.refund.inj (List.mem_singleton.mp hd)
      exact ⟨(keyAt_store s held' _ w').trans hw, (keyAt_store s held' _ held').trans hheld⟩

theorem exchanges_value {held observed : ℕ} {spurious : Bool}
    (h : exchanges s held observed spurious = true) : s.value held = observed := by
  unfold exchanges at h
  exact of_decide_eq_true (Bool.and_eq_true_iff.mp h).1

theorem placed_next {e : Event} (h : Placed c s) (henabled : Enabled s e) :
    Placed c (next c s e) := by
  cases e with
  | allow r now =>
    refine Placed.obtain (p := fun got => .counting got) h fun got w hw => ?_
    exact .inl (List.mem_singleton.mp hw)
  | count r =>
    obtain ⟨w, hphase⟩ := henabled
    have howned : Owned c s r w := h.held r w (by simp [hphase, Phase.windows])
    simp only [next, hphase]
    refine ((h.store w _).goto ?_).record _
    intro w' hw'
    split_ifs at hw'
    · obtain rfl := List.mem_singleton.mp hw'
      exact (keyAt_store s w' _ w').trans howned
    · exact absurd hw' List.not_mem_nil
  | answer r answer =>
    obtain ⟨w, hphase⟩ := henabled
    simp only [next, hphase]
    refine h.goto fun w' hw' => h.held r w' ?_
    rw [hphase]
    split_ifs at hw'
    · exact hw'
    · exact absurd hw' List.not_mem_nil
  | refund r now =>
    obtain ⟨w, hphase⟩ := henabled
    simp only [next, hphase]
    refine Placed.obtain (p := fun got => .holding w got) h fun got w' hw' => ?_
    rcases List.mem_cons.mp hw' with rfl | hw'
    · exact .inr (h.held r w' (by simp [hphase, Phase.windows]))
    · exact .inl (List.mem_singleton.mp hw')
  | load r =>
    obtain ⟨w, held, hphase⟩ := henabled
    simp only [next, hphase]
    refine h.goto fun w' hw' => h.held r w' ?_
    rw [hphase]
    exact hw'
  | exchange r spurious =>
    obtain ⟨w, held, observed, hphase⟩ := henabled
    simp only [next, hphase]
    split_ifs
    · exact ((h.store held _).goto fun w' hw' => absurd hw' List.not_mem_nil).record _
    · refine h.goto fun w' hw' => h.held r w' ?_
      rw [hphase]
      exact hw'

theorem accounts_next {e : Event} (hplaced : Placed c s) (hharmless : Harmless s)
    (haccounts : Accounts c s) (henabled : Enabled s e) (hbounded : Bounded s e) :
    Accounts c (next c s e) := by
  cases e with
  | allow r now => exact haccounts.obtain hplaced r now _
  | count r =>
    obtain ⟨w, hphase⟩ := henabled
    have howned : Owned c s r w := hplaced.held r w (by simp [hphase, Phase.windows])
    simp only [next, hphase]
    exact accounts_count haccounts howned (hbounded w hphase)
  | answer r answer =>
    obtain ⟨w, hphase⟩ := henabled
    simp only [next, hphase]
    exact haccounts.carry rfl (fun _ => rfl) fun _ _ h => h
  | refund r now =>
    obtain ⟨w, hphase⟩ := henabled
    simp only [next, hphase]
    exact haccounts.obtain hplaced r now _
  | load r =>
    obtain ⟨w, held, hphase⟩ := henabled
    simp only [next, hphase]
    exact haccounts.carry rfl (fun _ => rfl) fun _ _ h => h
  | exchange r spurious =>
    obtain ⟨w, held, observed, hphase⟩ := henabled
    have hwindows : ∀ w' ∈ [w, held], Owned c s r w' := by
      intro w' hw'
      exact hplaced.held r w' (by simpa [hphase, Phase.windows] using hw')
    simp only [next, hphase]
    split_ifs with hexchange
    · obtain rfl := exchanges_value hexchange
      have hown := hharmless r w held (by rw [hphase]; rfl)
      exact accounts_exchange haccounts (hwindows w (by simp)) (hwindows held (by simp)) hown
    · exact haccounts.carry rfl (fun _ => rfl) fun _ _ h => h

theorem Harmless.goto (h : Harmless s) {p : Phase}
    (hp : ∀ w held, p.refunding = some (w, held) → held = w ∨ s.value held = 0) :
    Harmless (s.goto r p) := by
  intro r' w held hheld
  by_cases hr : r' = r
  · rw [hr, phase_goto_self] at hheld
    exact hp w held hheld
  · rw [phase_goto_ne s r p hr] at hheld
    exact h r' w held hheld

theorem Harmless.store (h : Harmless s) {v : ℕ} {key : Text} (hkey : s.keyAt w = some key)
    (hv : ∀ r w', (s.phase r).refunding = some (w', w) → w = w' ∨ v = 0) :
    Harmless (s.store w v) := by
  intro r w' held hheld
  by_cases hw : held = w
  · rw [hw] at hheld ⊢
    rw [value_store_self s w v hkey]
    exact hv r w' hheld
  · rw [value_store_ne s w v hw]
    exact h r w' held hheld

theorem Harmless.obtain (h : Harmless s) (hplaced : Placed c s) {now : ℕ} {p : Phase}
    (hp : ∀ w held, p.refunding = some (w, held) → held = w ∨ s.value held = 0) :
    Harmless ((tryGetWith c s (c.keyOf r) now).2.goto r p) := by
  obtain ⟨hphase, -, hvalue, -⟩ := tryGetWith_spec (c := c) hplaced.cached (c.keyOf r) now
  have hgot : Harmless (tryGetWith c s (c.keyOf r) now).2 := by
    intro r' w held hheld
    rw [hphase] at hheld
    rw [hvalue]
    exact h r' w held hheld
  apply hgot.goto
  intro w held hheld
  rw [hvalue]
  exact hp w held hheld

theorem value_tryGetWith (key : Text) (now : ℕ) :
    live c s key now = some (tryGetWith c s key now).1 ∨
      s.value (tryGetWith c s key now).1 = 0 := by
  unfold tryGetWith
  cases live c s key now with
  | some w => exact .inl rfl
  | none =>
    right
    rw [State.value, List.getElem?_eq_none (Nat.le_refl _)]
    rfl

theorem harmless_next {e : Event} (hplaced : Placed c s) (h : Harmless s) (henabled : Enabled s e)
    (htimely : Timely c s e) : Harmless (next c s e) := by
  cases e with
  | allow r now => exact h.obtain hplaced fun w held hheld => by cases hheld
  | count r =>
    obtain ⟨w, hphase⟩ := henabled
    have howned : Owned c s r w := hplaced.held r w (by simp [hphase, Phase.windows])
    simp only [next, hphase]
    -- no refund of another window's hit holds the counter of the hit
    refine (h.store howned fun r' w' hheld => .inl (htimely w hphase r' w' hheld)).goto ?_
    intro w' held hheld
    split_ifs at hheld <;> cases hheld
  | answer r answer =>
    obtain ⟨w, hphase⟩ := henabled
    simp only [next, hphase]
    apply h.goto
    intro w' held hheld
    split_ifs at hheld <;> cases hheld
  | refund r now =>
    obtain ⟨w, hphase⟩ := henabled
    simp only [next, hphase]
    apply h.obtain hplaced
    intro w' held hheld
    obtain ⟨rfl, rfl⟩ := Prod.mk.inj (Option.some.inj hheld)
    rcases @value_tryGetWith c s (c.keyOf r) now with hlive | hnew
    · exact htimely w _ hphase hlive
    · exact .inr hnew
  | load r =>
    obtain ⟨w, held, hphase⟩ := henabled
    simp only [next, hphase]
    apply h.goto
    intro w' held' hheld
    apply h r w' held'
    rw [hphase]
    exact hheld
  | exchange r spurious =>
    obtain ⟨w, held, observed, hphase⟩ := henabled
    have howned : Owned c s r held := hplaced.held r held (by simp [hphase, Phase.windows])
    simp only [next, hphase]
    split_ifs with hexchange
    · obtain rfl := exchanges_value hexchange
      refine (h.store howned fun r' w' hheld => ?_).goto fun w' held' hheld => by cases hheld
      refine (h r' w' held hheld).imp_right fun hzero => ?_
      rw [hzero]
    · apply h.goto
      intro w' held' hheld
      apply h r w' held'
      rw [hphase]
      exact hheld

theorem exchange_breaks (hphase : s.phase r = .exchanging w held (s.value held)) (hne : held ≠ w)
    (hvalue : s.value held ≠ 0) :
    Executes (limiter c) Any s [.exchange r false] ∧ ¬Accounts c (next c s (.exchange r false)) := by
  refine ⟨⟨⟨w, held, _, hphase⟩, trivial, trivial⟩, fun haccounts => hne ?_⟩
  have hexchange : exchanges s held (s.value held) false = true := by simp [exchanges]
  apply haccounts.credited r w held
  simp only [next, hphase, if_pos hexchange]
  exact List.mem_append_right _ (by simp [hvalue])

theorem refund_breaks (hphase : (s.phase r).refunding = some (w, held)) (hne : held ≠ w)
    (hvalue : s.value held ≠ 0) :
    ∃ events, Executes (limiter c) Any s events ∧ ¬Accounts c (events.foldl (next c) s) := by
  have hretry : ∀ e, Enabled s e → next c s e = s.goto r (.exchanging w held (s.value held)) →
      ∃ events, Executes (limiter c) Any s events ∧ ¬Accounts c (events.foldl (next c) s) := by
    intro e henabled hnext
    have hbroken := @exchange_breaks c (s.goto r (.exchanging w held (s.value held))) r w held
      (phase_goto_self s r _) hne hvalue
    refine ⟨[e, .exchange r false], ⟨henabled, trivial, ?_⟩, ?_⟩
    · change Executes (limiter c) Any (next c s e) _
      rw [hnext]
      exact hbroken.1
    · rw [List.foldl_cons, hnext]
      exact hbroken.2
  cases hp : s.phase r with
  | holding w' held' =>
    rw [hp] at hphase
    obtain ⟨rfl, rfl⟩ := Prod.mk.inj (Option.some.inj hphase)
    exact hretry (.load r) ⟨w', held', hp⟩ (by simp only [next, hp])
  | exchanging w' held' observed =>
    rw [hp] at hphase
    obtain ⟨rfl, rfl⟩ := Prod.mk.inj (Option.some.inj hphase)
    by_cases hobserved : s.value held' = observed
    · subst hobserved
      exact ⟨[.exchange r false], exchange_breaks hp hne hvalue⟩
    · have hstale : exchanges s held' observed false = false := by simp [exchanges, hobserved]
      refine hretry (.exchange r false) ⟨w', held', observed, hp⟩ ?_
      simp only [next, hp, hstale, Bool.false_eq_true, if_false]
  | arriving => rw [hp] at hphase; cases hphase
  | counting w' => rw [hp] at hphase; cases hphase
  | admitted w' => rw [hp] at hphase; cases hphase
  | owing w' => rw [hp] at hphase; cases hphase
  | done => rw [hp] at hphase; cases hphase

theorem late_breaks {e : Event} (hplaced : Placed c s) (henabled : Enabled s e)
    (hbounded : Bounded s e) (hlate : ¬Timely c s e) :
    ∃ events, Executes (limiter c) Any (next c s e) events ∧
      ¬Accounts c (events.foldl (next c) (next c s e)) := by
  cases e with
  | refund r now =>
    simp only [Timely, not_forall, not_or] at hlate
    obtain ⟨w, held, hphase, hlive, hne, hvalue⟩ := hlate
    have hgot : tryGetWith c s (c.keyOf r) now = (held, s) := by
      rw [tryGetWith, hlive]
    simp only [next, hphase, hgot]
    exact refund_breaks (by rw [phase_goto_self]; rfl) hne hvalue
  | count r =>
    simp only [Timely, not_forall] at hlate
    obtain ⟨held, hphase, r', w, hheld, hne⟩ := hlate
    have howned : Owned c s r held := hplaced.held r held (by simp [hphase, Phase.windows])
    have hr : r' ≠ r := by
      rintro rfl
      rw [hphase] at hheld
      cases hheld
    simp only [next, hphase]
    refine @refund_breaks c _ r' w held ?_ hne ?_
    · change (Phase.refunding (Function.update s.phase r _ r')) = _
      rw [Function.update_of_ne hr, hheld]
    · rw [value_record, value_goto, value_store_self s held _ howned,
        Nat.mod_eq_of_lt (hbounded held hphase)]
      exact Nat.succ_ne_zero _
  | _ => exact absurd trivial hlate

end Invariant

/-- A limiter keeps its account in every run whose refunds come in time and whose counters do not
overflow; and after any step that brings a refund out of time, the refund can break it. -/
theorem limiter_accounts (c : Limiter) :
    (∀ s, Reachable (limiter c) (Careful c) s → Accounts c s) ∧
      ∀ s e, Reachable (limiter c) Any s → Enabled s e → Bounded s e → ¬Timely c s e →
        ∃ events, Executes (limiter c) Any (next c s e) events ∧
          ¬Accounts c (events.foldl (next c) (next c s e)) := by
  constructor
  · intro s h
    refine (h.invariant (fun s => Placed c s ∧ Harmless s ∧ Accounts c s) ?_ ?_).2.2
    · rintro s rfl
      exact ⟨placed_initial, fun _ _ _ h => (by cases h), accounts_initial⟩
    · rintro s e ⟨hplaced, hharmless, haccounts⟩ henabled ⟨htimely, hbounded⟩
      exact ⟨placed_next hplaced henabled, harmless_next hplaced hharmless henabled htimely,
        accounts_next hplaced hharmless haccounts henabled hbounded⟩
  · intro s e h henabled hbounded hlate
    have hplaced : Placed c s := by
      refine h.invariant (Placed c) ?_ fun s e hs henabled _ => placed_next hs henabled
      rintro s rfl
      exact placed_initial
    exact late_breaks hplaced henabled hbounded hlate

section Samples

def sampleLimiter : Limiter := ⟨.adminLimiter, 1, 60, fun _ => "192.0.2.7"⟩

def refundedInTime : List Event :=
  [.allow 0 0, .count 0, .answer 0 ⟨429, true⟩, .refund 0 59, .load 0, .exchange 0 false,
    .allow 1 59, .count 1]

/-- A hit given back when the next window has been opened by another request. -/
def refundedLate : List Event :=
  [.allow 0 0, .count 0, .answer 0 ⟨429, true⟩, .allow 1 60, .count 1, .refund 0 60, .load 0,
    .exchange 0 false, .allow 2 60, .count 2]

def after (events : List Event) : State := events.foldl (next sampleLimiter) {}

theorem refundedInTime_accounts :
    (Accounts sampleLimiter (after refundedInTime) ∧ admittedHits (after refundedInTime) 0 = 2) ∧
      ∃ events, Executes (limiter sampleLimiter) Any (after (refundedLate.take 6)) events ∧
        ¬Accounts sampleLimiter
          (events.foldl (next sampleLimiter) (after (refundedLate.take 6))) := by
  have hfree : ∀ s r, (∀ r', (s.phase r').refunding = none) → Timely sampleLimiter s (.count r) := by
    intro s r hnone held _ r' w hheld
    rw [hnone r'] at hheld
    cases hheld
  have hrun : Reachable (limiter sampleLimiter) (Careful sampleLimiter) (after refundedInTime) := by
    refine Reachable.execute (.init rfl) ⟨rfl, ⟨trivial, trivial⟩, ⟨0, rfl⟩, ⟨hfree _ 0 ?_, ?_⟩,
      ⟨0, rfl⟩, ⟨trivial, trivial⟩, ⟨0, rfl⟩, ⟨?_, trivial⟩, ⟨0, 0, rfl⟩, ⟨trivial, trivial⟩,
      ⟨0, 0, 1, rfl⟩, ⟨trivial, trivial⟩, rfl, ⟨trivial, trivial⟩, ⟨0, rfl⟩, ⟨hfree _ 1 ?_, ?_⟩,
      trivial⟩
    · rintro (_ | r') <;> rfl
    · rintro w ⟨⟩
      decide
    · rintro w held ⟨⟩ hlive
      exact .inl (Option.some.inj (hlive.symm.trans (by decide)))
    · rintro (_ | _ | r') <;> rfl
    · rintro w ⟨⟩
      decide
  have hlate : Reachable (limiter sampleLimiter) Any (after (refundedLate.take 5)) :=
    Reachable.execute (.init rfl) ⟨rfl, trivial, ⟨0, rfl⟩, trivial, ⟨0, rfl⟩, trivial, rfl,
      trivial, ⟨1, rfl⟩, trivial, trivial⟩
  refine ⟨⟨(limiter_accounts sampleLimiter).1 _ hrun, by decide⟩, ?_⟩
  refine (limiter_accounts sampleLimiter).2 _ (.refund 0 60) hlate ⟨0, rfl⟩ trivial ?_
  intro htimely
  have hown := htimely 0 1 rfl (by decide)
  revert hown
  decide

theorem late_refund_admits_twice :
    ∃ s, Reachable (limiter sampleLimiter) Any s ∧ ¬Accounts sampleLimiter s := by
  refine ⟨after refundedLate, ?_, ?_⟩
  · exact Reachable.execute (.init rfl) ⟨rfl, trivial, ⟨0, rfl⟩, trivial, ⟨0, rfl⟩, trivial, rfl,
      trivial, ⟨1, rfl⟩, trivial, ⟨0, rfl⟩, trivial, ⟨0, 1, rfl⟩, trivial, ⟨0, 1, 1, rfl⟩, trivial,
      rfl, trivial, ⟨1, rfl⟩, trivial, trivial⟩
  · intro haccounts
    have hadmitted : admittedHits (after refundedLate) 1 = 2 := by decide
    have hrefunds : ownRefunds (after refundedLate) 1 = 0 := by decide
    have hlimited := haccounts.limited 1
    have hlimit : sampleLimiter.limit = 1 := rfl
    omega

end Samples

end RateLimiter
