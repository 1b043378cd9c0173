import Fumox.RustText

/-!
JSON values with insertion-ordered objects, and the textual codec of a JSON library as a parameter.
-/

namespace JsonValue

open RustText

/-- Numbers as a decoder keeps them: integers by sign, floats by their printed image. -/
inductive Number where
  | posInt (n : ℕ)
  | negInt (n : ℤ)
  | float (image : Text)
  deriving DecidableEq, Repr

namespace Number

def image : Number → Text
  | posInt n => decimal n
  | negInt z => if z < 0 then '-' :: decimal z.natAbs else decimal z.natAbs
  | float image => image

def asU64 : Number → Option ℕ
  | posInt n => some n
  | _ => none

end Number

inductive Json where
  | null
  | bool (b : Bool)
  | num (n : Number)
  | str (t : Text)
  | arr (items : List Json)
  | obj (fields : List (Text × Json))
  deriving Repr

namespace Json

def asStr : Json → Option Text
  | str t => some t
  | _ => none

def asBool : Json → Option Bool
  | bool b => some b
  | _ => none

def asU64 : Json → Option ℕ
  | num n => n.asU64
  | _ => none

def asArray : Json → Option (List Json)
  | arr items => some items
  | _ => none

def asObject : Json → Option (List (Text × Json))
  | obj fields => some fields
  | _ => none

end Json

def objectGet (fields : List (Text × Json)) (key : Text) : Option Json :=
  fields.lookup key

section OrderedMap

variable {κ ν : Type*} {k : κ} {v : ν} {m : List (κ × ν)}

def DistinctKeys (m : List (κ × ν)) : Prop :=
  (m.map Prod.fst).Nodup

@[simp] theorem DistinctKeys.nil : DistinctKeys ([] : List (κ × ν)) :=
  List.nodup_nil

theorem DistinctKeys.append_new (h : DistinctKeys m) (hk : k ∉ m.map Prod.fst) :
    DistinctKeys (m ++ [(k, v)]) := by
  rw [DistinctKeys, List.map_append, List.nodup_append]
  refine ⟨h, by simp, ?_⟩
  rintro a ha b hb rfl
  rw [List.map_singleton, List.mem_singleton] at hb
  subst hb
  exact hk ha

variable [DecidableEq κ]

/-- `entry(key).or_insert(value)`: the first value of a key stays. -/
def orInsert (m : List (κ × ν)) (k : κ) (v : ν) : List (κ × ν) :=
  if k ∈ m.map Prod.fst then m else m ++ [(k, v)]

/-- `insert(key, value)`: the last value of a key stays, in the place of the first. -/
def insert (m : List (κ × ν)) (k : κ) (v : ν) : List (κ × ν) :=
  if k ∈ m.map Prod.fst then m.map fun f => if f.1 = k then (k, v) else f else m ++ [(k, v)]

theorem DistinctKeys.orInsert (h : DistinctKeys m) : DistinctKeys (orInsert m k v) := by
  unfold JsonValue.orInsert
  split_ifs with hk
  · exact h
  · exact h.append_new hk

theorem DistinctKeys.insert (h : DistinctKeys m) : DistinctKeys (insert m k v) := by
  unfold JsonValue.insert
  split_ifs with hk
  · have hkeys : (m.map fun f => if f.1 = k then (k, v) else f).map Prod.fst = m.map Prod.fst := by
      simp only [List.map_map, List.map_inj_left, Function.comp_apply]
      rintro f -
      split_ifs with hf
      · exact hf.symm
      · rfl
    rwa [DistinctKeys, hkeys]
  · exact h.append_new hk

theorem mem_insert_of_ne {f : κ × ν} (hf : f ∈ m) (hne : f.1 ≠ k) : f ∈ insert m k v := by
  unfold JsonValue.insert
  split_ifs with hk
  · exact List.mem_map.mpr ⟨f, hf, if_neg hne⟩
  · exact List.mem_append_left _ hf

theorem mem_of_mem_insert {f : κ × ν} (hf : f ∈ insert m k v) : f ∈ m ∨ f = (k, v) := by
  unfold JsonValue.insert at hf
  split_ifs at hf with hk
  · obtain ⟨g, hg, rfl⟩ := List.mem_map.mp hf
    by_cases hgk : g.1 = k
    · exact .inr (if_pos hgk)
    · rw [if_neg hgk]
      exact .inl hg
  · rcases List.mem_append.mp hf with hf | hf
    · exact .inl hf
    · exact .inr (List.mem_singleton.mp hf)

theorem countP_insert_le (p : κ → Bool) :
    (insert m k v).countP (fun f => p f.1) ≤ m.countP (fun f => p f.1) + 1 := by
  unfold JsonValue.insert
  split_ifs with hk
  · have hkeys : (fun f : κ × ν => p f.1) ∘ (fun f => if f.1 = k then (k, v) else f) =
        fun f => p f.1 := by
      funext f
      by_cases hf : f.1 = k <;> simp [hf]
    rw [List.countP_map, hkeys]
    omega
  · rw [List.countP_append]
    have hone := List.countP_le_length (p := fun f : κ × ν => p f.1) (l := [(k, v)])
    simp only [List.length_singleton] at hone
    omega

/-- An insertion touches the fields of its own key only. -/
theorem filter_insert (k' : κ) :
    (insert m k v).filter (fun f => decide (f.1 = k')) =
      if k = k' then insert (m.filter fun f => decide (f.1 = k')) k v
      else m.filter fun f => decide (f.1 = k') := by
  unfold JsonValue.insert
  have hkeys : (fun f : κ × ν => decide (f.1 = k')) ∘ (fun f => if f.1 = k then (k, v) else f) =
      fun f => decide (f.1 = k') := by
    funext f
    by_cases hf : f.1 = k <;> simp [hf]
  by_cases hk : k ∈ m.map Prod.fst
  · rw [if_pos hk, List.filter_map, hkeys]
    split_ifs with heq hmem
    · rfl
    · subst heq
      obtain ⟨f, hf, rfl⟩ := List.mem_map.mp hk
      exact absurd (List.mem_map_of_mem (List.mem_filter.mpr ⟨hf, by simp⟩)) hmem
    · conv_rhs => rw [← List.map_id (m.filter fun f => decide (f.1 = k'))]
      apply List.map_congr_left
      intro f hf
      have hfk : f.1 = k' := of_decide_eq_true (List.mem_filter.mp hf).2
      exact if_neg fun h => heq (h.symm.trans hfk)
  · rw [if_neg hk, List.filter_append]
    split_ifs with heq hmem
    · subst heq
      obtain ⟨f, hf, hfk⟩ := List.mem_map.mp hmem
      exact absurd (hfk ▸ List.mem_map_of_mem (List.mem_of_mem_filter hf)) hk
    · simp [heq]
    · simp [heq]

theorem mem_keys_insert {k' : κ} :
    k' ∈ (insert m k v).map Prod.fst ↔ k' ∈ m.map Prod.fst ∨ k' = k := by
  constructor
  · intro h
    obtain ⟨f, hf, rfl⟩ := List.mem_map.mp h
    rcases mem_of_mem_insert hf with hf | rfl
    · exact .inl (List.mem_map_of_mem hf)
    · exact .inr rfl
  · have hself : (k, v) ∈ insert m k v := by
      unfold JsonValue.insert
      split_ifs with hk
      · obtain ⟨f, hf, heq⟩ := List.mem_map.mp hk
        exact List.mem_map.mpr ⟨f, hf, if_pos heq⟩
      · exact List.mem_append_right _ (List.mem_singleton.mpr rfl)
    rintro (h | rfl)
    · obtain ⟨f, hf, rfl⟩ := List.mem_map.mp h
      by_cases hfk : f.1 = k
      · rw [hfk]
        exact List.mem_map_of_mem (f := Prod.fst) hself
      · exact List.mem_map_of_mem (mem_insert_of_ne hf hfk)
    · exact List.mem_map_of_mem (f := Prod.fst) hself

def insertAll (m l : List (κ × ν)) : List (κ × ν) :=
  l.foldl (fun m f => insert m f.1 f.2) m

theorem filter_insertAll (l : List (κ × ν)) (k' : κ) :
    (insertAll m l).filter (fun f => decide (f.1 = k')) =
      insertAll (m.filter fun f => decide (f.1 = k')) (l.filter fun f => decide (f.1 = k')) := by
  induction l generalizing m with
  | nil => rfl
  | cons f l ih =>
    have hstep : insertAll m (f :: l) = insertAll (insert m f.1 f.2) l := rfl
    rw [hstep, ih, filter_insert]
    by_cases hf : f.1 = k'
    · have hkept : (f :: l).filter (fun f => decide (f.1 = k')) =
          f :: l.filter fun f => decide (f.1 = k') := List.filter_cons_of_pos (by simpa using hf)
      rw [if_pos hf, hkept]
      rfl
    · have hleft : (f :: l).filter (fun f => decide (f.1 = k')) =
          l.filter fun f => decide (f.1 = k') := List.filter_cons_of_neg (by simpa using hf)
      rw [if_neg hf, hleft]

theorem mem_keys_insertAll {l : List (κ × ν)} {k' : κ} :
    k' ∈ (insertAll m l).map Prod.fst ↔ k' ∈ m.map Prod.fst ∨ k' ∈ l.map Prod.fst := by
  induction l generalizing m with
  | nil => simp [insertAll]
  | cons f l ih =>
    have hstep : insertAll m (f :: l) = insertAll (insert m f.1 f.2) l := rfl
    rw [hstep, ih, mem_keys_insert, List.map_cons, List.mem_cons, or_assoc]

theorem insertAll_eq_append {l : List (κ × ν)} (h : DistinctKeys (m ++ l)) :
    insertAll m l = m ++ l := by
  induction l generalizing m with
  | nil => simp [insertAll]
  | cons f l ih =>
    have hnew : f.1 ∉ m.map Prod.fst := by
      rw [DistinctKeys, List.map_append, List.map_cons] at h
      exact fun hmem => (List.nodup_append.mp h).2.2 _ hmem _ List.mem_cons_self rfl
    have hassoc : m ++ f :: l = (m ++ [f]) ++ l := by simp
    have hstep : insertAll m (f :: l) = insertAll (insert m f.1 f.2) l := rfl
    rw [hassoc] at h ⊢
    rw [hstep, insert, if_neg hnew]
    exact ih h

theorem distinctKeys_insertAll (l : List (κ × ν)) (h : DistinctKeys m) :
    DistinctKeys (insertAll m l) := by
  induction l generalizing m with
  | nil => exact h
  | cons f l ih => exact ih h.insert

omit [DecidableEq κ] in
theorem lookup_eq_head [BEq κ] [LawfulBEq κ] [DecidableEq κ] :
    m.lookup k = ((m.filter fun f => decide (f.1 = k)).head?).map (·.2) := by
  induction m with
  | nil => rfl
  | cons f m ih =>
    rw [List.lookup_cons]
    by_cases hf : f.1 = k
    · have hkept : (f :: m).filter (fun f => decide (f.1 = k)) =
          f :: m.filter fun f => decide (f.1 = k) := List.filter_cons_of_pos (by simpa using hf)
      rw [hkept, ← hf, beq_self_eq_true]
      rfl
    · have hleft : (f :: m).filter (fun f => decide (f.1 = k)) =
          m.filter fun f => decide (f.1 = k) := List.filter_cons_of_neg (by simpa using hf)
      have hne : (k == f.1) = false := beq_false_of_ne (Ne.symm hf)
      rw [hne, hleft]
      exact ih

omit [DecidableEq κ] in
theorem lookup_of_mem [BEq κ] [LawfulBEq κ] (h : DistinctKeys m) (hmem : (k, v) ∈ m) :
    m.lookup k = some v := by
  induction m with
  | nil => simp at hmem
  | cons f m ih =>
    have hnodup := List.nodup_cons.mp h
    rcases List.mem_cons.mp hmem with rfl | hmem
    · exact List.lookup_cons_self
    · have hne : k ≠ f.1 := by
        rintro rfl
        exact hnodup.1 (List.mem_map.mpr ⟨_, hmem, rfl⟩)
      rw [List.lookup_cons, beq_false_of_ne hne]
      exact ih hnodup.2 hmem

/-- The fields that `orInsert` keeps of a list, given the keys that are taken already. -/
def firsts (taken : List κ) : List (κ × ν) → List (κ × ν)
  | [] => []
  | f :: l => if f.1 ∈ taken then firsts taken l else f :: firsts (taken ++ [f.1]) l

theorem foldl_orInsert (m l : List (κ × ν)) :
    l.foldl (fun m f => orInsert m f.1 f.2) m = m ++ firsts (m.map Prod.fst) l := by
  induction l generalizing m with
  | nil => simp [firsts]
  | cons f l ih =>
    rw [List.foldl_cons, ih, firsts]
    unfold orInsert
    split_ifs
    · rfl
    · simp

theorem firsts_sublist (taken : List κ) (l : List (κ × ν)) : (firsts taken l).Sublist l := by
  induction l generalizing taken with
  | nil => exact .slnil
  | cons f l ih =>
    unfold firsts
    split_ifs
    · exact (ih taken).cons f
    · exact (ih _).cons_cons f

theorem mem_firsts_iff {taken : List κ} {l : List (κ × ν)} {f : κ × ν} :
    f ∈ firsts taken l ↔ f.1 ∉ taken ∧ l.find? (fun g => decide (g.1 = f.1)) = some f := by
  induction l generalizing taken with
  | nil => simp [firsts]
  | cons g l ih =>
    unfold firsts
    by_cases hkey : g.1 = f.1
    · rw [List.find?_cons_of_pos (by simpa using hkey)]
      split_ifs with htaken
      · rw [ih]
        exact iff_of_false (fun h => h.1 (hkey ▸ htaken)) fun h => h.1 (hkey ▸ htaken)
      · rw [List.mem_cons, ih]
        constructor
        · rintro (rfl | ⟨hnot, -⟩)
          · exact ⟨htaken, rfl⟩
          · exact absurd (by simp [hkey]) hnot
        · rintro ⟨-, heq⟩
          exact .inl (Option.some.inj heq).symm
    · rw [List.find?_cons_of_neg (by simpa using hkey)]
      split_ifs with htaken
      · exact ih
      · rw [List.mem_cons, ih]
        constructor
        · rintro (rfl | ⟨hnot, hfind⟩)
          · exact absurd rfl hkey
          · exact ⟨fun h => hnot (List.mem_append_left _ h), hfind⟩
        · rintro ⟨hnot, hfind⟩
          refine .inr ⟨fun h => ?_, hfind⟩
          rcases List.mem_append.mp h with h | h
          · exact hnot h
          · exact hkey (List.mem_singleton.mp h).symm

theorem distinctKeys_foldl_orInsert (m l : List (κ × ν)) (h : DistinctKeys m) :
    DistinctKeys (l.foldl (fun m f => orInsert m f.1 f.2) m) := by
  induction l generalizing m with
  | nil => exact h
  | cons f l ih => exact ih _ h.orInsert

/-- Dropping repeated keys is invisible to `g` exactly when `g` ignores every repetition. -/
theorem filterMap_firsts_eq_iff {γ : Type*} (g : κ × ν → Option γ) (taken : List κ)
    (l : List (κ × ν)) :
    (firsts taken l).filterMap g = l.filterMap g ↔
      (∀ f ∈ l, f.1 ∈ taken → g f = none) ∧
        l.Pairwise fun a b => a.1 = b.1 → g b = none := by
  induction l generalizing taken with
  | nil => simp [firsts]
  | cons f l ih =>
    unfold firsts
    split_ifs with hf
    · cases hg : g f with
      | none =>
        rw [List.filterMap_cons_none hg, ih, List.pairwise_cons]
        constructor
        · rintro ⟨htaken, hpair⟩
          refine ⟨?_, fun b hb hkey => htaken b hb (hkey ▸ hf), hpair⟩
          rintro a (_ | ⟨_, ha⟩) hin
          · exact hg
          · exact htaken a ha hin
        · rintro ⟨htaken, -, hpair⟩
          exact ⟨fun a ha => htaken a (List.mem_cons_of_mem f ha), hpair⟩
      | some y =>
        rw [List.filterMap_cons_some hg]
        constructor
        · intro h
          have hlen := ((firsts_sublist taken l).filterMap g).length_le
          rw [h, List.length_cons] at hlen
          omega
        · rintro ⟨htaken, -⟩
          simp [htaken f List.mem_cons_self hf] at hg
    · have hcons : ((f :: firsts (taken ++ [f.1]) l).filterMap g = (f :: l).filterMap g) ↔
          (firsts (taken ++ [f.1]) l).filterMap g = l.filterMap g := by
        cases hg : g f <;> simp [hg]
      rw [hcons, ih, List.pairwise_cons]
      constructor
      · rintro ⟨htaken, hpair⟩
        refine ⟨?_, fun b hb hkey => htaken b hb (by simp [hkey]), hpair⟩
        rintro a (_ | ⟨_, ha⟩) hin
        · exact absurd hin hf
        · exact htaken a ha (by simp [hin])
      · rintro ⟨htaken, hhead, hpair⟩
        refine ⟨?_, hpair⟩
        intro a ha hin
        rcases List.mem_append.mp hin with hin | hin
        · exact htaken a (List.mem_cons_of_mem f ha) hin
        · exact hhead a ha (List.mem_singleton.mp hin).symm

end OrderedMap

structure SerdeJson where
  toStr : Json → Text
  fromStr : Text → Option Json

def stringObject (m : List (Text × Text)) : Json :=
  .obj (m.map fun f => (f.1, .str f.2))

/-- Objects of strings survive printing and parsing, in order. -/
def SerdeJson.RoundTripsStrings (json : SerdeJson) : Prop :=
  ∀ m : List (Text × Text), DistinctKeys m →
    json.fromStr (json.toStr (stringObject m)) = some (stringObject m)

/-- A parsed object is a map: it holds each key once. -/
def SerdeJson.DistinctObjects (json : SerdeJson) : Prop :=
  ∀ t fields, json.fromStr t = some (.obj fields) → DistinctKeys fields

end JsonValue
