import Mathlib
import Fumox.AddressText
import Fumox.ConfigModels

/-!
The addresses of one resolver answer: the per-host cap that reserves a slot for each family, and
the choice of the address to connect to.
-/

namespace VettedAddresses

open RustText AddressText ConfigModels

section Masks

variable {α : Type*} {p : α → Bool} {mask : List Bool} {xs : List α}

def select (mask : List Bool) (xs : List α) : List α :=
  ((xs.zip mask).filter (·.2)).map (·.1)

/-- The mask covers the list and keeps the first element that satisfies `p`. -/
def KeepsFirst (p : α → Bool) : List Bool → List α → Prop
  | _, [] => True
  | [], _ :: _ => False
  | keep :: mask, x :: xs => (p x = true → keep = true) ∧ (p x = false → KeepsFirst p mask xs)

@[simp] theorem select_cons (keep : Bool) (mask : List Bool) (x : α) (xs : List α) :
    select (keep :: mask) (x :: xs) =
      if keep = true then x :: select mask xs else select mask xs := by
  cases keep <;> simp [select]

@[simp] theorem select_nil (xs : List α) : select [] xs = [] := by
  simp [select]

@[simp] theorem select_empty (mask : List Bool) : select mask ([] : List α) = [] := rfl

theorem select_sublist (mask : List Bool) (xs : List α) : (select mask xs).Sublist xs := by
  induction mask generalizing xs with
  | nil => simp
  | cons keep mask ih =>
    cases xs with
    | nil => simp
    | cons x xs =>
      rw [select_cons]
      by_cases hkeep : keep = true
      · rw [if_pos hkeep]
        exact (ih xs).cons_cons x
      · rw [if_neg hkeep]
        exact (ih xs).cons x

theorem length_select (h : mask.length = xs.length) :
    (select mask xs).length = mask.count true := by
  induction mask generalizing xs with
  | nil => simp
  | cons keep mask ih =>
    cases xs with
    | nil => simp at h
    | cons x xs =>
      have htail : (select mask xs).length = mask.count true := ih (by simpa using h)
      cases keep <;> simp [htail]

/-- A mask that keeps the first match does not change what a search finds. -/
theorem find?_select (h : KeepsFirst p mask xs) : (select mask xs).find? p = xs.find? p := by
  induction mask generalizing xs with
  | nil =>
    cases xs with
    | nil => rfl
    | cons x xs => exact h.elim
  | cons keep mask ih =>
    cases xs with
    | nil => rfl
    | cons x xs =>
      obtain ⟨hfirst, hrest⟩ := h
      by_cases hx : p x = true
      · simp [hfirst hx, hx]
      · have htail := ih (hrest (by simpa using hx))
        cases keep <;> simp [hx, htail]

end Masks

def isIpv4 : IpAddr → Bool
  | .v4 .. => true
  | .v6 _ => false

def isIpv6 : IpAddr → Bool
  | .v4 .. => false
  | .v6 _ => true

theorem isIpv6_eq_not (ip : IpAddr) : isIpv6 ip = !isIpv4 ip := by
  cases ip <;> rfl

def pickVetted (addrs : List IpAddr) : IpFamily → Option IpAddr
  | .any => (addrs.find? isIpv4).or addrs.head?
  | .ipv4 => addrs.find? isIpv4
  | .ipv6 => addrs.find? isIpv6

def maxVettedAddresses : ℕ := 4

/-- The first loop of `cap_vetted`: one slot for each family.  Returns the mask and `kept`. -/
def reserve : ℕ → Bool → Bool → List IpAddr → List Bool × ℕ
  | kept, _, _, [] => ([], kept)
  | kept, v4Reserved, v6Reserved, ip :: rest =>
    if (if isIpv4 ip then v4Reserved else v6Reserved) then
      let (keep, kept') := reserve kept v4Reserved v6Reserved rest
      (false :: keep, kept')
    else if kept + 1 = maxVettedAddresses then
      (true :: rest.map fun _ => false, kept + 1)
    else
      let (keep, kept') :=
        reserve (kept + 1) (v4Reserved || isIpv4 ip) (v6Reserved || !isIpv4 ip) rest
      (true :: keep, kept')

def fill : ℕ → List Bool → List Bool
  | _, [] => []
  | kept, keep :: rest =>
    if kept = maxVettedAddresses then keep :: rest
    else if keep then keep :: fill kept rest
    else true :: fill (kept + 1) rest

def capVetted (addrs : List IpAddr) : List IpAddr :=
  if addrs.length ≤ maxVettedAddresses then addrs
  else
    let (keep, kept) := reserve 0 false false addrs
    select (fill kept keep) addrs

/-- The policy and the cap over one resolver answer; `checkIp` names the reason of a refusal. -/
def vetResolvedAddrs (checkIp : IpAddr → Option Text) (host : Text) (lookup : List IpAddr) :
    Except Text (List IpAddr) :=
  go [] lookup
where
  go (addrs : List IpAddr) : List IpAddr → Except Text (List IpAddr)
    | [] =>
      if addrs.isEmpty then
        .error (("DNS resolution returned no addresses for " : Text) ++ host)
      else .ok (capVetted addrs)
    | ip :: rest =>
      match checkIp ip with
      | some reason => .error (host ++ (": " : Text) ++ reason)
      | none => go (if addrs.contains ip then addrs else addrs ++ [ip]) rest

section Mask

variable {kept : ℕ} {mask : List Bool}

theorem length_fill (kept : ℕ) (mask : List Bool) : (fill kept mask).length = mask.length := by
  induction mask generalizing kept with
  | nil => rfl
  | cons keep rest ih =>
    rw [fill]
    by_cases hfull : kept = maxVettedAddresses
    · rw [if_pos hfull]
    · cases keep <;> simp [hfull, ih]

theorem KeepsFirst.fill {α : Type*} {p : α → Bool} {xs : List α} (h : KeepsFirst p mask xs) :
    KeepsFirst p (fill kept mask) xs := by
  induction mask generalizing kept xs with
  | nil => exact h
  | cons keep rest ih =>
    cases xs with
    | nil => simp [KeepsFirst]
    | cons x xs =>
      obtain ⟨hfirst, hrest⟩ := h
      rw [VettedAddresses.fill]
      by_cases hfull : kept = maxVettedAddresses
      · rw [if_pos hfull]
        exact ⟨hfirst, hrest⟩
      · cases keep with
        | true => simpa [hfull] using ⟨fun _ => rfl, fun hx => ih (hrest hx)⟩
        | false => simpa [hfull] using ⟨fun _ => rfl, fun hx => ih (hrest hx)⟩

theorem count_fill (h : kept ≤ maxVettedAddresses) :
    (fill kept mask).count true =
      mask.count true + min (maxVettedAddresses - kept) (mask.count false) := by
  induction mask generalizing kept with
  | nil => simp [fill]
  | cons keep rest ih =>
    rw [fill]
    by_cases hfull : kept = maxVettedAddresses
    · rw [if_pos hfull, hfull]
      simp
    · rw [if_neg hfull]
      cases keep with
      | true =>
        have htail := ih h
        simp only [if_true, List.count_cons_self, htail, List.count_cons, beq_iff_eq]
        simp
        omega
      | false =>
        have htail : (fill (kept + 1) rest).count true =
            rest.count true + min (maxVettedAddresses - (kept + 1)) (rest.count false) :=
          ih (by omega)
        simp [htail]
        omega

def reserved (v4Reserved v6Reserved : Bool) : ℕ :=
  v4Reserved.toNat + v6Reserved.toNat

theorem reserved_add_one_ne (v4Reserved v6Reserved : Bool) :
    reserved v4Reserved v6Reserved + 1 ≠ maxVettedAddresses := by
  cases v4Reserved <;> cases v6Reserved <;> decide

theorem reserve_cons (ip : IpAddr) (rest : List IpAddr) (v4Reserved v6Reserved : Bool) :
    reserve (reserved v4Reserved v6Reserved) v4Reserved v6Reserved (ip :: rest) =
      if (if isIpv4 ip then v4Reserved else v6Reserved) then
        (false :: (reserve (reserved v4Reserved v6Reserved) v4Reserved v6Reserved rest).1,
          (reserve (reserved v4Reserved v6Reserved) v4Reserved v6Reserved rest).2)
      else
        let v4' := v4Reserved || isIpv4 ip
        let v6' := v6Reserved || !isIpv4 ip
        (true :: (reserve (reserved v4' v6') v4' v6' rest).1,
          (reserve (reserved v4' v6') v4' v6' rest).2) := by
  rw [reserve]
  by_cases hheld : (if isIpv4 ip then v4Reserved else v6Reserved) = true
  · rw [if_pos hheld, if_pos hheld]
  · have hnext : reserved v4Reserved v6Reserved + 1 =
        reserved (v4Reserved || isIpv4 ip) (v6Reserved || !isIpv4 ip) := by
      cases hip : isIpv4 ip <;> cases v4Reserved <;> cases v6Reserved <;> simp_all [reserved]
    rw [if_neg hheld, if_neg (reserved_add_one_ne _ _), if_neg hheld, hnext]

/-- What the reservation leaves: a mask over the whole list with `kept` slots on, at most one for
each family, and on at the first address of every family that had no slot. -/
structure Reservation (v4Reserved v6Reserved : Bool) (addrs : List IpAddr)
    (result : List Bool × ℕ) : Prop where
  length : result.1.length = addrs.length
  kept : result.2 = reserved v4Reserved v6Reserved + result.1.count true
  bound : result.2 ≤ 2
  firstIpv4 : v4Reserved = false → KeepsFirst isIpv4 result.1 addrs
  firstIpv6 : v6Reserved = false → KeepsFirst isIpv6 result.1 addrs

theorem reservation (v4Reserved v6Reserved : Bool) (addrs : List IpAddr) :
    Reservation v4Reserved v6Reserved addrs
      (reserve (reserved v4Reserved v6Reserved) v4Reserved v6Reserved addrs) := by
  induction addrs generalizing v4Reserved v6Reserved with
  | nil =>
    refine ⟨rfl, rfl, ?_, fun _ => trivial, fun _ => trivial⟩
    cases v4Reserved <;> cases v6Reserved <;> decide
  | cons ip rest ih =>
    rw [reserve_cons]
    by_cases hheld : (if isIpv4 ip then v4Reserved else v6Reserved) = true
    · have hrest := ih v4Reserved v6Reserved
      rw [if_pos hheld]
      refine ⟨by simp [hrest.length], by simpa using hrest.kept, hrest.bound, ?_, ?_⟩
      · intro hfree
        refine ⟨fun hip => ?_, fun _ => hrest.firstIpv4 hfree⟩
        simp [hip, hfree] at hheld
      · intro hfree
        refine ⟨fun hip => ?_, fun _ => hrest.firstIpv6 hfree⟩
        cases hv4 : isIpv4 ip <;> simp [isIpv6_eq_not, hv4, hfree] at hip hheld
    · have hrest := ih (v4Reserved || isIpv4 ip) (v6Reserved || !isIpv4 ip)
      have hnext : reserved (v4Reserved || isIpv4 ip) (v6Reserved || !isIpv4 ip) =
          reserved v4Reserved v6Reserved + 1 := by
        cases hip : isIpv4 ip <;> cases v4Reserved <;> cases v6Reserved <;> simp_all [reserved]
      rw [if_neg hheld]
      refine ⟨by simp [hrest.length], ?_, hrest.bound, ?_, ?_⟩
      · have hkept := hrest.kept
        simp only [List.count_cons_self]
        omega
      · intro hfree
        exact ⟨fun _ => rfl, fun hip => hrest.firstIpv4 (by simp [hfree, hip])⟩
      · intro hfree
        refine ⟨fun _ => rfl, fun hip => hrest.firstIpv6 ?_⟩
        cases hv4 : isIpv4 ip <;> simp [isIpv6_eq_not, hv4, hfree] at hip ⊢

end Mask

variable (addrs : List IpAddr)

/-- Below the cap nothing is lost; above it the mask of both loops decides. -/
theorem capVetted_cases :
    (addrs.length ≤ maxVettedAddresses ∧ capVetted addrs = addrs) ∨
      ∃ mask : List Bool, capVetted addrs = select mask addrs ∧
        mask.length = addrs.length ∧ mask.count true = maxVettedAddresses ∧
        KeepsFirst isIpv4 mask addrs ∧ KeepsFirst isIpv6 mask addrs := by
  by_cases hshort : addrs.length ≤ maxVettedAddresses
  · exact .inl ⟨hshort, if_pos hshort⟩
  · right
    have hreserve := reservation false false addrs
    rw [show reserved false false = 0 from rfl] at hreserve
    refine ⟨fill (reserve 0 false false addrs).2 (reserve 0 false false addrs).1,
      if_neg hshort, (length_fill _ _).trans hreserve.length, ?_,
      (hreserve.firstIpv4 rfl).fill, (hreserve.firstIpv6 rfl).fill⟩
    have hkept : (reserve 0 false false addrs).2 =
        (reserve 0 false false addrs).1.count true := by
      simpa [reserved] using hreserve.kept
    have hroom : (reserve 0 false false addrs).2 ≤ maxVettedAddresses :=
      hreserve.bound.trans (by decide)
    have hlength := List.count_true_add_count_false (reserve 0 false false addrs).1
    rw [hreserve.length] at hlength
    rw [count_fill hroom]
    omega

theorem capVetted_sublist : (capVetted addrs).Sublist addrs := by
  rcases capVetted_cases addrs with ⟨-, hall⟩ | ⟨mask, hmask, -⟩
  · rw [hall]
  · rw [hmask]
    exact select_sublist mask addrs

theorem length_capVetted_le : (capVetted addrs).length ≤ maxVettedAddresses := by
  rcases capVetted_cases addrs with ⟨hshort, hall⟩ | ⟨mask, hmask, hlength, hcount, -⟩
  · rwa [hall]
  · rw [hmask, length_select hlength, hcount]

theorem find?_isIpv4_capVetted : (capVetted addrs).find? isIpv4 = addrs.find? isIpv4 := by
  rcases capVetted_cases addrs with ⟨-, hall⟩ | ⟨mask, hmask, -, -, hfirst, -⟩
  · rw [hall]
  · rw [hmask, find?_select hfirst]

theorem find?_isIpv6_capVetted : (capVetted addrs).find? isIpv6 = addrs.find? isIpv6 := by
  rcases capVetted_cases addrs with ⟨-, hall⟩ | ⟨mask, hmask, -, -, -, hfirst⟩
  · rw [hall]
  · rw [hmask, find?_select hfirst]

theorem head?_eq_find?_isIpv6 {addrs : List IpAddr} (h : addrs.find? isIpv4 = none) :
    addrs.head? = addrs.find? isIpv6 := by
  cases addrs with
  | nil => rfl
  | cons ip rest =>
    have hv4 : isIpv4 ip = false := by simpa using List.find?_eq_none.mp h ip (by simp)
    simp [isIpv6_eq_not, hv4]

theorem exists_mem_iff {p : IpAddr → Bool}
    (h : (capVetted addrs).find? p = addrs.find? p) :
    (∃ ip ∈ capVetted addrs, p ip = true) ↔ ∃ ip ∈ addrs, p ip = true := by
  rw [← List.find?_isSome, ← List.find?_isSome, h]

theorem pickVetted_capVetted (family : IpFamily) :
    pickVetted (capVetted addrs) family = pickVetted addrs family := by
  cases family with
  | any =>
    rw [pickVetted, pickVetted, find?_isIpv4_capVetted]
    cases hv4 : addrs.find? isIpv4 with
    | some ip => rfl
    | none =>
      rw [Option.none_or, Option.none_or, head?_eq_find?_isIpv6 hv4,
        head?_eq_find?_isIpv6 (by rw [find?_isIpv4_capVetted, hv4]), find?_isIpv6_capVetted]
  | ipv4 => exact find?_isIpv4_capVetted addrs
  | ipv6 => exact find?_isIpv6_capVetted addrs

/-- The cap keeps the order, the bound, both families and the choice of every picker. -/
theorem cap_keeps_choice :
    (capVetted addrs).Sublist addrs ∧
      (capVetted addrs).length ≤ maxVettedAddresses ∧
      ((∃ ip ∈ addrs, isIpv4 ip = true) → ∃ ip ∈ capVetted addrs, isIpv4 ip = true) ∧
      ((∃ ip ∈ addrs, isIpv6 ip = true) → ∃ ip ∈ capVetted addrs, isIpv6 ip = true) ∧
      ∀ family, pickVetted (capVetted addrs) family = pickVetted addrs family :=
  ⟨capVetted_sublist addrs, length_capVetted_le addrs,
    (exists_mem_iff addrs (find?_isIpv4_capVetted addrs)).mpr,
    (exists_mem_iff addrs (find?_isIpv6_capVetted addrs)).mpr,
    pickVetted_capVetted addrs⟩

section Answers

variable {checkIp : IpAddr → Option Text} {host : Text} {lookup out : List IpAddr}

theorem vetResolvedAddrs_go_ok {seen : List IpAddr} (hseen : seen.Nodup)
    (h : vetResolvedAddrs.go checkIp host seen lookup = .ok out) :
    (∀ ip ∈ lookup, checkIp ip = none) ∧
      ∃ addrs : List IpAddr, out = capVetted addrs ∧ addrs ≠ [] ∧ addrs.Nodup ∧
        ∀ ip, ip ∈ addrs ↔ ip ∈ seen ∨ ip ∈ lookup := by
  induction lookup generalizing seen with
  | nil =>
    rw [vetResolvedAddrs.go] at h
    by_cases hempty : seen.isEmpty = true
    · simp [hempty] at h
    · rw [if_neg hempty] at h
      exact ⟨by simp, seen, (Except.ok.inj h).symm, by simpa using hempty, hseen, by simp⟩
  | cons ip rest ih =>
    rw [vetResolvedAddrs.go] at h
    cases hcheck : checkIp ip with
    | some reason => simp [hcheck] at h
    | none =>
      simp only [hcheck] at h
      by_cases hknown : ip ∈ seen
      · rw [if_pos (by simpa using hknown)] at h
        obtain ⟨hrest, addrs, hout, hne, hnodup, hmem⟩ := ih hseen h
        refine ⟨by simpa [hcheck] using hrest, addrs, hout, hne, hnodup, fun x => ?_⟩
        rw [hmem, List.mem_cons]
        by_cases hx : x = ip
        · simp [hx, hknown]
        · simp [hx]
      · have hfresh : ∀ x ∈ seen, ¬x = ip := by
          intro x hx heq
          exact hknown (heq ▸ hx)
        have hnext : (seen ++ [ip]).Nodup := by simpa [List.nodup_append, hseen] using hfresh
        obtain ⟨hrest, addrs, hout, hne, hnodup, hmem⟩ := ih hnext (by simpa [hknown] using h)
        refine ⟨by simpa [hcheck] using hrest, addrs, hout, hne, hnodup, fun x => ?_⟩
        rw [hmem, List.mem_append, List.mem_singleton, List.mem_cons, or_assoc]

theorem vetResolvedAddrs_ok (h : vetResolvedAddrs checkIp host lookup = .ok out) :
    (∀ ip ∈ lookup, checkIp ip = none) ∧
      ∃ addrs : List IpAddr, out = capVetted addrs ∧ addrs ≠ [] ∧ addrs.Nodup ∧
        ∀ ip, ip ∈ addrs ↔ ip ∈ lookup := by
  simpa using vetResolvedAddrs_go_ok List.nodup_nil h

theorem vetResolvedAddrs_go_accepts {seen : List IpAddr} (h : ∀ ip ∈ lookup, checkIp ip = none)
    (hne : seen ≠ [] ∨ lookup ≠ []) :
    ∃ out, vetResolvedAddrs.go checkIp host seen lookup = .ok out := by
  induction lookup generalizing seen with
  | nil =>
    have hseen : seen ≠ [] := hne.resolve_right fun hnil => hnil rfl
    exact ⟨capVetted seen, by simp [vetResolvedAddrs.go, hseen]⟩
  | cons ip rest ih =>
    obtain ⟨hip, hrest⟩ := List.forall_mem_cons.mp h
    rw [vetResolvedAddrs.go, hip]
    apply ih hrest
    left
    by_cases hknown : ip ∈ seen
    · rw [if_pos (by simpa using hknown)]
      exact List.ne_nil_of_mem hknown
    · rw [if_neg (by simpa using hknown)]
      simp

theorem vetResolvedAddrs_accepts (h : ∀ ip ∈ lookup, checkIp ip = none) (hne : lookup ≠ []) :
    ∃ out, vetResolvedAddrs checkIp host lookup = .ok out :=
  vetResolvedAddrs_go_accepts h (.inr hne)

end Answers

end VettedAddresses
