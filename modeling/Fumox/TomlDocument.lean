import Fumox.JsonValue

/-!
The configuration document as the settings form edits it: sections of keyed items.  One edit sets
one item, opening its section when the document lacks it.
-/

section KeyedLists

variable {κ ν : Type*} [DecidableEq κ] [BEq κ] [LawfulBEq κ]

theorem lookup_pair (m : List (κ × ν)) (k a : κ) (b : ν) :
    ((a, b) :: m).lookup k = if k = a then some b else m.lookup k := by
  rw [List.lookup_cons]
  by_cases h : k = a
  · simp [h]
  · simp [h, beq_false_of_ne h]

theorem lookup_eq_none_iff {m : List (κ × ν)} {k : κ} : m.lookup k = none ↔ k ∉ m.map Prod.fst := by
  induction m with
  | nil => simp
  | cons f m ih =>
    rw [lookup_pair, List.map_cons, List.mem_cons, not_or, ← ih]
    split_ifs with h <;> simp [h]

theorem lookup_map_value (m : List (κ × ν)) (g : κ → ν → ν) (k : κ) :
    (m.map fun f => (f.1, g f.1 f.2)).lookup k = (m.lookup k).map (g k) := by
  induction m with
  | nil => rfl
  | cons f m ih =>
    rw [List.map_cons, lookup_pair, lookup_pair, ih]
    split_ifs with h
    · rw [h]
      rfl
    · rfl

theorem lookup_insert (m : List (κ × ν)) (k k' : κ) (v : ν) :
    (JsonValue.insert m k v).lookup k' = if k' = k then some v else m.lookup k' := by
  unfold JsonValue.insert
  split_ifs with hmem hk hk
  · subst hk
    have hmap : (m.map fun f => if f.1 = k' then (k', v) else f) =
        m.map fun f => (f.1, if f.1 = k' then v else f.2) := by
      apply List.map_congr_left
      intro f _
      split_ifs with hf
      · rw [← hf]
      · rfl
    rw [hmap, lookup_map_value m fun key old => if key = k' then v else old]
    cases hlook : m.lookup k' with
    | none => exact absurd hmem (lookup_eq_none_iff.mp hlook)
    | some old => simp
  · have hmap : (m.map fun f => if f.1 = k then (k, v) else f) =
        m.map fun f => (f.1, if f.1 = k then v else f.2) := by
      apply List.map_congr_left
      intro f _
      split_ifs with hf
      · rw [← hf]
      · rfl
    rw [hmap, lookup_map_value m fun key old => if key = k then v else old]
    cases m.lookup k' <;> simp [hk]
  · subst hk
    rw [List.lookup_append, lookup_eq_none_iff.mpr hmem, lookup_pair, if_pos rfl]
    rfl
  · rw [List.lookup_append, lookup_pair, if_neg hk]
    exact Option.or_none

/-- One keyed list laid over another; `combine` joins what both carry. -/
def overlay (combine : ν → ν → ν) (base top : List (κ × ν)) : List (κ × ν) :=
  (base.map fun f => (f.1, ((top.lookup f.1).map (combine f.2)).getD f.2)) ++
    top.filter fun f => decide (f.1 ∉ base.map Prod.fst)

theorem lookup_overlay (combine : ν → ν → ν) (base top : List (κ × ν)) (k : κ) :
    (overlay combine base top).lookup k =
      match base.lookup k with
      | some b => some (((top.lookup k).map (combine b)).getD b)
      | none => top.lookup k := by
  have hfilter : ∀ t : List (κ × ν), k ∉ base.map Prod.fst →
      (t.filter fun f => decide (f.1 ∉ base.map Prod.fst)).lookup k = t.lookup k := by
    intro t hk
    induction t with
    | nil => rfl
    | cons f t ih =>
      rw [lookup_pair]
      by_cases hin : f.1 ∈ base.map Prod.fst
      · have hne : k ≠ f.1 := fun h => hk (h ▸ hin)
        rw [List.filter_cons_of_neg (by simpa using hin), ih, if_neg hne]
      · rw [List.filter_cons_of_pos (by simpa using hin), lookup_pair, ih]
  rw [overlay, List.lookup_append,
    lookup_map_value base fun key old => ((top.lookup key).map (combine old)).getD old]
  cases hbase : base.lookup k with
  | some b => rfl
  | none => exact hfilter top (lookup_eq_none_iff.mp hbase)

theorem mem_keys_overlay {combine : ν → ν → ν} {base top : List (κ × ν)} {k : κ} :
    k ∈ (overlay combine base top).map Prod.fst ↔
      k ∈ base.map Prod.fst ∨ k ∈ top.map Prod.fst := by
  have hnone := lookup_overlay combine base top k
  rw [← not_iff_not, not_or, ← lookup_eq_none_iff, ← lookup_eq_none_iff, ← lookup_eq_none_iff, hnone]
  cases base.lookup k <;> simp

end KeyedLists

namespace TomlDocument

open RustText

inductive Scalar where
  | string (s : Text)
  | integer (n : ℤ)
  | boolean (b : Bool)
  /-- Floats, dates and nested values, which no setting takes. -/
  | other (raw : Text)
  deriving DecidableEq, Repr

inductive Item where
  | scalar (s : Scalar)
  | array (items : List Scalar)
  deriving DecidableEq, Repr

/-- An inline table reads like a standard one and is no place to write to. -/
inductive Section where
  | table (inline : Bool) (entries : List (Text × Item))
  | value (item : Item)
  deriving DecidableEq, Repr

abbrev Document := List (Text × Section)

structure Key where
  section_ : Text
  leaf : Text
  deriving DecidableEq, Repr

def Key.dotted (key : Key) : Text :=
  key.section_ ++ '.' :: key.leaf

def get (doc : Document) (key : Key) : Option Item :=
  match doc.lookup key.section_ with
  | some (.table _ entries) => entries.lookup key.leaf
  | _ => none

/-- `EditableConfig::set` for a key of two segments; `none` is `UnknownSection`. -/
def set (doc : Document) (key : Key) (item : Item) : Option Document :=
  match doc.lookup key.section_ with
  | none => some (JsonValue.insert doc key.section_ (.table false [(key.leaf, item)]))
  | some (.table false entries) =>
    some (JsonValue.insert doc key.section_
      (.table false (JsonValue.insert entries key.leaf item)))
  | some _ => none

/-- Sections that can be written to, or opened. -/
def Writable (doc : Document) (name : Text) : Prop :=
  match doc.lookup name with
  | none => True
  | some (.table inline _) => inline = false
  | some (.value _) => False

instance (doc : Document) (name : Text) : Decidable (Writable doc name) := by
  unfold Writable
  split <;> infer_instance

section Edits

variable {doc doc' : Document} {key : Key} {item : Item}

theorem set_eq_some (h : set doc key item = some doc') :
    ∃ entries : List (Text × Item),
      (doc.lookup key.section_ = none ∧ entries = [] ∨
        doc.lookup key.section_ = some (.table false entries)) ∧
      doc' = JsonValue.insert doc key.section_
        (.table false (JsonValue.insert entries key.leaf item)) := by
  unfold set at h
  split at h
  next hnone =>
    cases h
    exact ⟨[], .inl ⟨hnone, rfl⟩, rfl⟩
  next entries hsome =>
    cases h
    exact ⟨entries, .inr hsome, rfl⟩
  next => cases h

theorem set_isSome : (set doc key item).isSome ↔ Writable doc key.section_ := by
  unfold set Writable
  cases hlook : doc.lookup key.section_ with
  | none => simp
  | some s =>
    cases s with
    | table inline entries => cases inline <;> simp
    | value item => simp

theorem get_set (h : set doc key item = some doc') (key' : Key) :
    get doc' key' = if key' = key then some item else get doc key' := by
  obtain ⟨entries, hbefore, rfl⟩ := set_eq_some h
  unfold get
  rw [lookup_insert]
  by_cases hsection : key'.section_ = key.section_
  · rw [if_pos hsection, hsection]
    simp only [lookup_insert]
    by_cases hleaf : key'.leaf = key.leaf
    · have hkey : key' = key := by
        cases key'
        cases key
        simp_all
      rw [if_pos hleaf, if_pos hkey]
    · have hkey : key' ≠ key := fun heq => hleaf (heq ▸ rfl)
      rw [if_neg hleaf, if_neg hkey]
      rcases hbefore with ⟨hnone, rfl⟩ | hsome
      · rw [hnone]
        rfl
      · rw [hsome]
  · have hkey : key' ≠ key := fun heq => hsection (heq ▸ rfl)
    rw [if_neg hsection, if_neg hkey]

theorem writable_set (h : set doc key item = some doc') (name : Text) :
    Writable doc' name ↔ Writable doc name := by
  obtain ⟨entries, hbefore, rfl⟩ := set_eq_some h
  unfold Writable
  rw [lookup_insert]
  by_cases hname : name = key.section_
  · rw [if_pos hname, hname]
    rcases hbefore with ⟨hnone, -⟩ | hsome
    · simp [hnone]
    · simp [hsome]
  · rw [if_neg hname]

end Edits

/-- `Figment::merge` of two values of a section: tables are joined, later values win. -/
def mergeSections : Section → Section → Section
  | .table _ base, .table _ top => .table false (overlay (fun _ item => item) base top)
  | _, top => top

def merge (doc env : Document) : Document :=
  overlay mergeSections doc env

theorem get_merge {doc env : Document} {key : Key}
    (h : ∀ item, env.lookup key.section_ ≠ some (.value item)) :
    get (merge doc env) key = (get env key).or (get doc key) := by
  unfold get merge
  rw [lookup_overlay]
  cases hbase : doc.lookup key.section_ with
  | none =>
    cases htop : env.lookup key.section_ with
    | none => rfl
    | some s =>
      cases s with
      | table inline entries => simp
      | value item => exact absurd htop (h item)
  | some b =>
    cases htop : env.lookup key.section_ with
    | none => simp
    | some s =>
      cases s with
      | value item => exact absurd htop (h item)
      | table inline entries =>
        cases b with
        | value item => simp [mergeSections]
        | table inline' base =>
          simp only [Option.map_some, Option.getD_some, mergeSections, lookup_overlay]
          cases base.lookup key.leaf <;> cases entries.lookup key.leaf <;> rfl

end TomlDocument
