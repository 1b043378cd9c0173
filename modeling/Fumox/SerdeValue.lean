import Fumox.JsonValue

/-!
Reading JSON values as typed data: structs by field name or by place, optional and defaulted
fields, and the primitive types.
-/

namespace SerdeValue

open RustText JsonValue

/-- The values of the fields of a struct. Each field has its name and aliases; an object may hold
no other key and no field twice, an array gives the fields in order. -/
def structFields (names : List (List Text)) : Json → Option (List (Option Json))
  | .obj fields =>
    if (∀ f ∈ fields, ∃ n ∈ names, f.1 ∈ n) ∧
        ∀ n ∈ names, (fields.countP fun f => decide (f.1 ∈ n)) ≤ 1 then
      some (names.map fun n => (fields.find? fun f => decide (f.1 ∈ n)).map (·.2))
    else none
  | .arr items =>
    if items.length ≤ names.length then
      some (items.map some ++ List.replicate (names.length - items.length) none)
    else none
  | _ => none

section Fields

variable {α : Type}

def required (read : Json → Option α) : Option Json → Option α
  | none => none
  | some j => read j

/-- A field with a default: the value is read only when the field is there. -/
def orDefault (d : α) (read : Json → Option α) : Option Json → Option α
  | none => some d
  | some j => read j

/-- An `Option` field: absent and `null` are the same. -/
def optional (read : Json → Option α) : Option Json → Option (Option α)
  | none => some none
  | some .null => some none
  | some j => (read j).map some

def readVec (read : Json → Option α) (j : Json) : Option (List α) :=
  j.asArray.bind fun items => items.mapM read

end Fields

def readBool : Json → Option Bool := Json.asBool

def readString : Json → Option Text := Json.asStr

def readInt (lo hi : ℤ) : Json → Option ℤ
  | .num (.posInt n) => if lo ≤ n ∧ (n : ℤ) ≤ hi then some n else none
  | .num (.negInt z) => if lo ≤ z ∧ z ≤ hi then some z else none
  | _ => none

def readU8 : Json → Option ℤ := readInt 0 255

def readI64 : Json → Option ℤ := readInt (-2 ^ 63) (2 ^ 63 - 1)

/-- A variant without data: its name, or an object with the name and `null`. -/
def unitVariant : Json → Option Text
  | .str name => some name
  | .obj [(name, .null)] => some name
  | _ => none

def writtenFields : List (List Text) → List (Option Json) → List (Text × Json)
  | (name :: _) :: names, some j :: slots => (name, j) :: writtenFields names slots
  | _ :: names, _ :: slots => writtenFields names slots
  | _, _ => []

/-- `serde_json::Number` of a signed integer. -/
def intValue (z : ℤ) : Json :=
  if 0 ≤ z then .num (.posInt z.toNat) else .num (.negInt z)

def textsValue (l : List Text) : Json := .arr (l.map .str)

theorem readInt_intValue {lo hi z : ℤ} : readInt lo hi (intValue z) =
    if lo ≤ z ∧ z ≤ hi then some z else none := by
  unfold intValue
  by_cases hz : 0 ≤ z
  · have hnat : (z.toNat : ℤ) = z := Int.toNat_of_nonneg hz
    simp only [hz, if_true, readInt, hnat]
  · simp only [hz, if_false, readInt]

section WrittenFields

variable {α : Type} {read : Json → Option α} {write : α → Json}

theorem readVec_written {l : List α} (h : ∀ a ∈ l, read (write a) = some a) :
    readVec read (.arr (l.map write)) = some l := by
  have hmap : (l.map write).mapM read = some l := by
    induction l with
    | nil => rfl
    | cons a l ih =>
      have hrest := ih fun b hb => h b (List.mem_cons_of_mem a hb)
      simp only [List.map_cons, List.mapM_cons, h a List.mem_cons_self, hrest]
      rfl
  exact hmap

theorem readVec_textsValue (l : List Text) : readVec readString (textsValue l) = some l :=
  readVec_written fun _ _ => rfl

theorem optional_written {o : Option α} (h : ∀ a, o = some a → read (write a) = some a)
    (hnull : ∀ a, write a ≠ .null) : optional read (o.map write) = some o := by
  cases o with
  | none => rfl
  | some a =>
    have hread := h a rfl
    have hne := hnull a
    rw [Option.map_some]
    unfold optional
    split
    · next hnone => cases hnone
    · next heq => exact absurd (Option.some.inj heq) hne
    · next j _ heq =>
      obtain rfl := Option.some.inj heq
      rw [hread]
      rfl

theorem orDefault_written [DecidableEq α] (d : α) {a : α} (h : read (write a) = some a) :
    orDefault d read (if a = d then none else some (write a)) = some a := by
  split_ifs with ha
  · rw [ha]
    rfl
  · exact h

end WrittenFields

section Structs

variable {names : List (List Text)}

theorem length_structFields {j : Json} {slots : List (Option Json)}
    (h : structFields names j = some slots) : slots.length = names.length := by
  cases j with
  | obj fields =>
    rw [structFields] at h
    split at h
    · obtain rfl := Option.some.inj h
      exact List.length_map _
    · cases h
  | arr items =>
    rw [structFields] at h
    split at h
    · obtain rfl := Option.some.inj h
      rw [List.length_append, List.length_map, List.length_replicate]
      omega
    · cases h
  | _ => cases h

theorem structFields_obj {fields : List (Text × Json)} {slots : List (Option Json)} :
    structFields names (.obj fields) = some slots ↔
      ((∀ f ∈ fields, ∃ n ∈ names, f.1 ∈ n) ∧
        ∀ n ∈ names, (fields.countP fun f => decide (f.1 ∈ n)) ≤ 1) ∧
      slots = names.map fun n => (fields.find? fun f => decide (f.1 ∈ n)).map (·.2) := by
  rw [structFields]
  split
  next h => exact ⟨fun heq => ⟨h, (Option.some.inj heq).symm⟩, fun heq => by rw [heq.2]⟩
  next h => exact ⟨fun heq => (by cases heq), fun heq => absurd heq.1 h⟩

theorem mem_writtenFields {slots : List (Option Json)} {f : Text × Json}
    (h : f ∈ writtenFields names slots) : ∃ n ∈ names, f.1 ∈ n := by
  induction names generalizing slots with
  | nil => simp [writtenFields] at h
  | cons n names ih =>
    cases slots with
    | nil => simp [writtenFields] at h
    | cons slot slots =>
      have hrest : f ∈ writtenFields names slots → ∃ m ∈ n :: names, f.1 ∈ m := fun hf => by
        obtain ⟨m, hm, hmem⟩ := ih hf
        exact ⟨m, List.mem_cons_of_mem n hm, hmem⟩
      cases n with
      | nil => exact hrest (by simpa [writtenFields] using h)
      | cons name aliases =>
        cases slot with
        | none => exact hrest (by simpa [writtenFields] using h)
        | some j =>
          rcases List.mem_cons.mp h with rfl | hf
          · exact ⟨name :: aliases, List.mem_cons_self, List.mem_cons_self⟩
          · exact hrest hf

theorem writtenFields_concat {slots : List (Option Json)} {name : Text} {aliases : List Text}
    (hlen : slots.length = names.length) (slot : Option Json) :
    writtenFields (names ++ [name :: aliases]) (slots ++ [slot]) =
      writtenFields names slots ++ (slot.map fun j => (name, j)).toList := by
  induction names generalizing slots with
  | nil =>
    obtain rfl := List.length_eq_zero_iff.mp hlen
    cases slot <;> rfl
  | cons n names ih =>
    obtain ⟨first, slots, rfl⟩ := List.exists_cons_of_length_eq_add_one hlen
    have hrest := @ih slots (by simpa using hlen)
    cases n with
    | nil => simpa [writtenFields] using hrest
    | cons key keys =>
      cases first with
      | none => simpa [writtenFields] using hrest
      | some j => simpa [writtenFields] using hrest

theorem writtenFields_eq_nil {slots : List (Option Json)}
    (hlen : slots.length = names.length) (hne : ∀ n ∈ names, n ≠ []) :
    writtenFields names slots = [] ↔ ∀ slot ∈ slots, slot = none := by
  induction names generalizing slots with
  | nil =>
    obtain rfl := List.length_eq_zero_iff.mp hlen
    simp [writtenFields]
  | cons n names ih =>
    obtain ⟨slot, slots, rfl⟩ := List.exists_cons_of_length_eq_add_one hlen
    obtain ⟨name, aliases, rfl⟩ := List.exists_cons_of_ne_nil (hne n List.mem_cons_self)
    have hrest := @ih slots (by simpa using hlen) fun m hm => hne m (List.mem_cons_of_mem _ hm)
    cases slot <;> simp [writtenFields, hrest]

theorem filter_writtenFields {slots : List (Option Json)}
    (hdisjoint : names.Pairwise fun n m => ∀ a ∈ n, a ∉ m) (hne : ∀ n ∈ names, n ≠ [])
    (hlen : slots.length = names.length) :
    (names.map fun n => ((writtenFields names slots).filter fun f => decide (f.1 ∈ n)).map Prod.snd) =
      slots.map Option.toList := by
  induction names generalizing slots with
  | nil =>
    obtain rfl := List.length_eq_zero_iff.mp hlen
    rfl
  | cons n names ih =>
    obtain ⟨hfirst, hrest⟩ := List.pairwise_cons.mp hdisjoint
    obtain ⟨slot, slots, rfl⟩ := List.exists_cons_of_length_eq_add_one hlen
    obtain ⟨name, aliases, rfl⟩ := List.exists_cons_of_ne_nil (hne n List.mem_cons_self)
    have htail := ih hrest (fun m hm => hne m (List.mem_cons_of_mem _ hm)) (by simpa using hlen)
    have hnone : (writtenFields names slots).filter
        (fun f => decide (f.1 ∈ name :: aliases)) = [] := by
      refine List.filter_eq_nil_iff.mpr fun f hf hmem => ?_
      obtain ⟨m, hm, hkey⟩ := mem_writtenFields hf
      exact hfirst m hm f.1 (of_decide_eq_true hmem) hkey
    rw [List.map_cons, List.map_cons]
    cases slot with
    | none =>
      rw [writtenFields, hnone, htail]
      · rfl
      · simp
    | some j =>
      rw [writtenFields, List.filter_cons_of_pos (by simp), hnone, ← htail]
      refine congrArg (_ :: ·) (List.map_congr_left fun m hm => ?_)
      rw [List.filter_cons_of_neg (by simpa using hfirst m hm name List.mem_cons_self)]

theorem structFields_written {slots : List (Option Json)}
    (hdisjoint : names.Pairwise fun n m => ∀ a ∈ n, a ∉ m) (hne : ∀ n ∈ names, n ≠ [])
    (hlen : slots.length = names.length) :
    structFields names (.obj (writtenFields names slots)) = some slots := by
  have hfilter := filter_writtenFields hdisjoint hne hlen
  refine structFields_obj.mpr ⟨⟨fun f hf => mem_writtenFields hf, fun n hn => ?_⟩, ?_⟩
  · obtain ⟨slot, -, hslot⟩ := List.mem_map.mp (hfilter ▸ List.mem_map_of_mem hn)
    have hcount := congrArg List.length hslot
    rw [List.length_map, ← List.countP_eq_length_filter] at hcount
    cases slot <;> simp at hcount <;> omega
  · have hhead := congrArg (List.map List.head?) hfilter
    rw [List.map_map, List.map_map] at hhead
    have hslots : slots.map (List.head? ∘ Option.toList) = slots := by
      refine (List.map_congr_left fun slot _ => ?_).trans (List.map_id slots)
      cases slot <;> rfl
    refine hslots.symm.trans (hhead.symm.trans (List.map_congr_left fun n _ => ?_))
    rw [Function.comp_apply, List.head?_map, List.head?_filter]

def occurrences (name : Text) (fields : List (Text × Json)) : List (Text × Json) :=
  fields.filter fun f => decide (f.1 = name)

theorem structFields_single {names : List Text} {fields : List (Text × Json)}
    {slots : List (Option Json)} :
    structFields (names.map fun n => [n]) (.obj fields) = some slots ↔
      ((∀ f ∈ fields, f.1 ∈ names) ∧ ∀ n ∈ names, (occurrences n fields).length ≤ 1) ∧
      slots = names.map fun n => ((occurrences n fields).head?).map (·.2) := by
  rw [structFields_obj]
  simp only [List.mem_map, exists_exists_and_eq_and, List.mem_singleton, exists_eq_right',
    forall_exists_index, and_imp, forall_apply_eq_imp_iff₂, List.map_map, Function.comp_def,
    List.countP_eq_length_filter, List.head?_filter, occurrences]

theorem length_insertAll_le {name : Text} {m l : List (Text × Json)}
    (hm : ∀ f ∈ m, f.1 = name) (hl : ∀ f ∈ l, f.1 = name) (h : m.length ≤ 1) :
    (insertAll m l).length ≤ 1 := by
  induction l generalizing m with
  | nil => exact h
  | cons f l ih =>
    have hstep : insertAll m (f :: l) = insertAll (JsonValue.insert m f.1 f.2) l := rfl
    have hf := hl f List.mem_cons_self
    rw [hstep]
    apply ih
    · intro g hg
      rcases mem_of_mem_insert hg with hg | rfl
      · exact hm g hg
      · exact hf
    · exact fun g hg => hl g (List.mem_cons_of_mem f hg)
    · unfold JsonValue.insert
      split_ifs with hk
      · rwa [List.length_map]
      · cases m with
        | nil => exact le_rfl
        | cons g m =>
          exact absurd (List.mem_map.mpr ⟨g, List.mem_cons_self,
            (hm g List.mem_cons_self).trans hf.symm⟩) hk

theorem length_le_insertAll {m l : List (Text × Json)} : m.length ≤ (insertAll m l).length := by
  induction l generalizing m with
  | nil => exact le_rfl
  | cons f l ih =>
    refine le_trans ?_ (ih (m := JsonValue.insert m f.1 f.2))
    unfold JsonValue.insert
    split_ifs
    · rw [List.length_map]
    · rw [List.length_append]
      omega

theorem occurrences_insertAll (name : Text) (m l : List (Text × Json)) :
    occurrences name (insertAll m l) = insertAll (occurrences name m) (occurrences name l) :=
  filter_insertAll l name

theorem occurrences_name {name : Text} {fields : List (Text × Json)} :
    ∀ f ∈ occurrences name fields, f.1 = name := fun _ hf =>
  of_decide_eq_true (List.mem_filter.mp hf).2

/-- The conditions on the keys of a merged object are those on the object that it is merged into,
when the other one meets them. -/
theorem merged_keys_iff {names : List Text} {s p : List (Text × Json)}
    (hknown : ∀ f ∈ p, f.1 ∈ names) :
    ((∀ f ∈ insertAll s p, f.1 ∈ names) ∧
        ∀ n ∈ names, (occurrences n (insertAll s p)).length ≤ 1) ↔
      (∀ f ∈ s, f.1 ∈ names) ∧ ∀ n ∈ names, (occurrences n s).length ≤ 1 := by
  constructor
  · rintro ⟨hkeys, honce⟩
    constructor
    · intro f hf
      have hmem : f.1 ∈ (insertAll s p).map Prod.fst :=
        mem_keys_insertAll.mpr (.inl (List.mem_map_of_mem hf))
      obtain ⟨g, hg, heq⟩ := List.mem_map.mp hmem
      exact heq ▸ hkeys g hg
    · intro n hn
      have hlen := honce n hn
      rw [occurrences_insertAll] at hlen
      exact le_trans length_le_insertAll hlen
  · rintro ⟨hkeys, honce⟩
    constructor
    · intro f hf
      rcases mem_keys_insertAll.mp (List.mem_map_of_mem (f := Prod.fst) hf) with hmem | hmem
      · obtain ⟨g, hg, heq⟩ := List.mem_map.mp hmem
        exact heq ▸ hkeys g hg
      · obtain ⟨g, hg, heq⟩ := List.mem_map.mp hmem
        exact heq ▸ hknown g hg
    · intro n hn
      rw [occurrences_insertAll]
      exact length_insertAll_le occurrences_name occurrences_name (honce n hn)

end Structs

end SerdeValue
