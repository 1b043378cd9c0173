import Fumox.SourceForm

/-!
The secrets that a posted header receives: its own for its own mask, and otherwise the one stored
secret that the typed value is the mask of.
-/

namespace HeaderSecrets

open RustText JsonValue SourceForm

structure OnlySecret (secrets : List Text) (mask secret : Text) : Prop where
  stored : secret ∈ secrets
  masked : maskSecret secret = mask
  only : ∀ other ∈ secrets, maskSecret other = mask → other = secret

theorem OnlySecret.unique {secrets : List Text} {mask a b : Text} (ha : OnlySecret secrets mask a)
    (hb : OnlySecret secrets mask b) : a = b :=
  hb.only a ha.stored ha.masked

section Masks

variable {secrets : List Text} {masks : Masks}

/-- Two secrets of a list with one mask. -/
def Ambiguous (secrets : List Text) (mask : Text) : Prop :=
  ∃ a ∈ secrets, ∃ b ∈ secrets, maskSecret a = mask ∧ maskSecret b = mask ∧ a ≠ b

structure Recorded (secrets : List Text) (masks : Masks) : Prop where
  ambiguous : ∀ mask, mask ∈ masks.ambiguous ↔ Ambiguous secrets mask
  secrets : ∀ mask secret, masks.secrets.lookup mask = some secret ↔
    OnlySecret secrets mask secret

theorem recorded_nil : Recorded [] {} where
  ambiguous := by simp [Ambiguous]
  secrets := fun _ _ => iff_of_false (by simp) fun h => absurd h.stored List.not_mem_nil

theorem lookup_filter_ne {m : List (Text × Text)} {mask key : Text} :
    (m.filter fun f => f.1 ≠ mask).lookup key = if key = mask then none else m.lookup key := by
  induction m with
  | nil => simp
  | cons f m ih =>
    by_cases hf : f.1 = mask
    · rw [List.filter_cons_of_neg (by simpa using hf), ih]
      split_ifs with hkey
      · rfl
      · have hne : ¬key = f.1 := fun heq => hkey (heq.trans hf)
        rw [List.lookup_cons, beq_eq_false_iff_ne.mpr hne]
    · rw [List.filter_cons_of_pos (by simpa using hf), List.lookup_cons, List.lookup_cons, ih]
      cases hkey : key == f.1 with
      | true =>
        have hne : ¬key = mask := fun heq => hf ((eq_of_beq hkey).symm.trans heq)
        rw [if_neg hne, if_neg hne]
      | false => rfl

theorem onlySecret_append {mask secret original : Text} :
    OnlySecret (secrets ++ [original]) mask secret ↔
      if maskSecret original = mask then
        original = secret ∧ ∀ other ∈ secrets, maskSecret other = mask → other = secret
      else OnlySecret secrets mask secret := by
  split_ifs with hmask
  · constructor
    · intro h
      have horiginal := h.only original (by simp) hmask
      exact ⟨horiginal, fun other hother => h.only other (List.mem_append_left _ hother)⟩
    · rintro ⟨rfl, honly⟩
      refine ⟨by simp, hmask, fun other hother hother' => ?_⟩
      rcases List.mem_append.mp hother with hold | hnew
      · exact honly other hold hother'
      · exact List.mem_singleton.mp hnew
  · constructor
    · intro h
      refine ⟨?_, h.masked, fun other hother => h.only other (List.mem_append_left _ hother)⟩
      rcases List.mem_append.mp h.stored with hold | hnew
      · exact hold
      · exact absurd (List.mem_singleton.mp hnew ▸ h.masked) hmask
    · intro h
      refine ⟨List.mem_append_left _ h.stored, h.masked, fun other hother hother' => ?_⟩
      rcases List.mem_append.mp hother with hold | hnew
      · exact h.only other hold hother'
      · exact absurd (List.mem_singleton.mp hnew ▸ hother') hmask

theorem ambiguous_append {mask original : Text} : Ambiguous (secrets ++ [original]) mask ↔
    Ambiguous secrets mask ∨
      maskSecret original = mask ∧ ∃ a ∈ secrets, maskSecret a = mask ∧ a ≠ original := by
  constructor
  · rintro ⟨a, ha, b, hb, hamask, hbmask, hne⟩
    rcases List.mem_append.mp ha with hafirst | halast <;>
      rcases List.mem_append.mp hb with hbfirst | hblast
    · exact .inl ⟨a, hafirst, b, hbfirst, hamask, hbmask, hne⟩
    · obtain rfl := List.mem_singleton.mp hblast
      exact .inr ⟨hbmask, a, hafirst, hamask, hne⟩
    · obtain rfl := List.mem_singleton.mp halast
      exact .inr ⟨hamask, b, hbfirst, hbmask, hne.symm⟩
    · exact absurd ((List.mem_singleton.mp halast).trans (List.mem_singleton.mp hblast).symm) hne
  · rintro (⟨a, ha, b, hb, hmasks⟩ | ⟨hmask, a, ha, hamask, hne⟩)
    · exact ⟨a, List.mem_append_left _ ha, b, List.mem_append_left _ hb, hmasks⟩
    · exact ⟨a, List.mem_append_left _ ha, original, by simp, hamask, hmask, hne⟩

theorem only_or_ambiguous {a mask : Text} (ha : a ∈ secrets) (hmask : maskSecret a = mask) :
    OnlySecret secrets mask a ∨ Ambiguous secrets mask := by
  by_cases honly : ∀ other ∈ secrets, maskSecret other = mask → other = a
  · exact .inl ⟨ha, hmask, honly⟩
  · push Not at honly
    obtain ⟨other, hother, hothermask, hne⟩ := honly
    exact .inr ⟨other, hother, a, ha, hothermask, hmask, hne⟩

theorem not_only_of_ambiguous {mask secret : Text} (h : Ambiguous secrets mask) :
    ¬OnlySecret secrets mask secret := by
  rintro ⟨-, -, honly⟩
  obtain ⟨a, ha, b, hb, hamask, hbmask, hne⟩ := h
  exact hne ((honly a ha hamask).trans (honly b hb hbmask).symm)

theorem recorded_addMask (h : Recorded secrets masks) (original : Text) :
    Recorded (secrets ++ [original]) (addMask masks original) := by
  unfold addMask
  dsimp only
  split_ifs with hambiguous
  · -- a mask of several secrets stays one
    have hold := (h.ambiguous _).mp hambiguous
    constructor
    · intro mask
      rw [h.ambiguous, ambiguous_append]
      exact ⟨.inl, fun hor => hor.elim id fun hnew => hnew.1 ▸ hold⟩
    · intro mask secret
      rw [h.secrets]
      by_cases hmask : maskSecret original = mask
      · subst hmask
        exact iff_of_false (not_only_of_ambiguous hold)
          (not_only_of_ambiguous (ambiguous_append.mpr (.inl hold)))
      · rw [onlySecret_append, if_neg hmask]
  · have hnot : ¬Ambiguous secrets (maskSecret original) := fun hold =>
      hambiguous ((h.ambiguous _).mpr hold)
    cases hlookup : masks.secrets.lookup (maskSecret original) with
    | some previous =>
      have hprevious := (h.secrets _ _).mp hlookup
      by_cases hne : previous ≠ original
      · -- a second secret: the mask answers no more
        simp only [if_pos hne]
        have hboth : Ambiguous (secrets ++ [original]) (maskSecret original) :=
          ambiguous_append.mpr (.inr ⟨rfl, previous, hprevious.stored, hprevious.masked, hne⟩)
        constructor
        · intro mask
          rw [List.mem_cons, h.ambiguous, ambiguous_append]
          constructor
          · rintro (rfl | hold)
            · exact ambiguous_append.mp hboth
            · exact .inl hold
          · rintro (hold | ⟨hmask, -⟩)
            · exact .inr hold
            · exact .inl hmask.symm
        · intro mask secret
          rw [lookup_filter_ne]
          by_cases hmask : mask = maskSecret original
          · rw [if_pos hmask, hmask]
            exact iff_of_false (Option.some_ne_none secret).symm (not_only_of_ambiguous hboth)
          · rw [if_neg hmask, h.secrets, onlySecret_append, if_neg fun heq => hmask heq.symm]
      · -- the same secret once more
        simp only [if_neg hne]
        have hsame : previous = original := not_not.mp hne
        constructor
        · intro mask
          rw [h.ambiguous, ambiguous_append]
          refine ⟨.inl, fun hor => hor.elim id ?_⟩
          rintro ⟨rfl, a, ha, hamask, hother⟩
          exact absurd ((hprevious.only a ha hamask).trans hsame) hother
        · intro mask secret
          rw [h.secrets, onlySecret_append]
          split_ifs with hmask
          · subst hmask
            constructor
            · intro hsecret
              exact ⟨hsame.symm.trans (hprevious.unique hsecret), hsecret.only⟩
            · rintro ⟨rfl, -⟩
              exact hsame ▸ hprevious
          · exact Iff.rfl
    | none =>
      -- a mask that no secret had
      have hnew : ∀ a ∈ secrets, maskSecret a ≠ maskSecret original := by
        intro a ha hmask
        rcases only_or_ambiguous ha hmask with honly | hold
        · rw [(h.secrets _ _).mpr honly] at hlookup
          cases hlookup
        · exact hnot hold
      constructor
      · intro mask
        rw [h.ambiguous, ambiguous_append]
        refine ⟨.inl, fun hor => hor.elim id ?_⟩
        rintro ⟨rfl, a, ha, hamask, -⟩
        exact absurd hamask (hnew a ha)
      · intro mask secret
        rw [List.lookup_cons, onlySecret_append]
        by_cases hmask : maskSecret original = mask
        · subst hmask
          rw [beq_self_eq_true, if_pos rfl, Option.some.injEq]
          exact ⟨fun heq => ⟨heq, fun other hother hothermask =>
            absurd hothermask (hnew other hother)⟩, fun hand => hand.1⟩
        · rw [beq_eq_false_iff_ne.mpr fun heq => hmask heq.symm, if_neg hmask]
          exact h.secrets _ _

theorem recorded_storedMasks (stored : HeaderMap) :
    Recorded (stored.map Prod.snd) (storedMasks stored) := by
  have hrun : ∀ rest done masks, Recorded done masks →
      Recorded (done ++ rest) (rest.foldl addMask masks) := by
    intro rest
    induction rest with
    | nil =>
      intro done masks h
      rwa [List.append_nil]
    | cons original rest ih =>
      intro done masks h
      have hrest := ih _ _ (recorded_addMask h original)
      rwa [List.append_assoc] at hrest
  exact hrun _ [] {} recorded_nil

end Masks

section Restored

variable {stored edited : HeaderMap}

/-- A header of a stored name gives back its own secret for its own mask and keeps any other typed
value; a header of another name keeps its value or receives the one secret that is masked so. -/
def RestoresOwn (stored edited : HeaderMap) : Prop :=
  ∀ key typed, edited.lookup key = some typed →
    ∃ value, (restoreMaskedHeaders edited stored).lookup key = some value ∧
      match stored.lookup key with
      | some own => value = if typed = maskSecret own then own else typed
      | none => value = typed ∨ OnlySecret (stored.map Prod.snd) typed value

/-- No header of a stored name is typed as the mask of just one secret, of another header. -/
def NoForeignMask (stored edited : HeaderMap) : Prop :=
  ∀ key typed own, edited.lookup key = some typed → stored.lookup key = some own →
    typed ≠ maskSecret own → ∀ secret, OnlySecret (stored.map Prod.snd) typed secret →
      secret = typed

theorem masked_spec (stored : HeaderMap) (typed : Text) :
    ((storedMasks stored).secrets.lookup typed = none ∧
      ∀ secret, ¬OnlySecret (stored.map Prod.snd) typed secret) ∨
    ∃ secret, (storedMasks stored).secrets.lookup typed = some secret ∧
      OnlySecret (stored.map Prod.snd) typed secret := by
  have hrecorded := (recorded_storedMasks stored).secrets typed
  cases hlookup : (storedMasks stored).secrets.lookup typed with
  | none =>
    refine .inl ⟨rfl, fun secret hsecret => ?_⟩
    rw [(hrecorded secret).mpr hsecret] at hlookup
    cases hlookup
  | some secret => exact .inr ⟨secret, rfl, (hrecorded secret).mp hlookup⟩

theorem restoreMaskedHeaders_eq (edited stored : HeaderMap) :
    restoreMaskedHeaders edited stored =
      edited.map fun h => (h.1, restoreValue stored h.1 h.2) := by
  unfold restoreMaskedHeaders
  split_ifs with hempty
  · rcases hempty with rfl | rfl
    · rfl
    · exact (List.map_id edited).symm
  · rfl

theorem lookup_map_value {f : Text → Text → Text} {m : HeaderMap} {key : Text} :
    (m.map fun h => (h.1, f h.1 h.2)).lookup key = (m.lookup key).map (f key) := by
  induction m with
  | nil => rfl
  | cons h m ih =>
    rw [List.map_cons, List.lookup_cons, List.lookup_cons, ih]
    cases hkey : key == h.1 with
    | true =>
      rw [eq_of_beq hkey]
      rfl
    | false => rfl

theorem lookup_restored {key typed : Text} (h : edited.lookup key = some typed) :
    (restoreMaskedHeaders edited stored).lookup key = some (restoreValue stored key typed) := by
  rw [restoreMaskedHeaders_eq, lookup_map_value, h, Option.map_some]

/-- The restored map follows the stored names exactly when no foreign mask is typed under one. -/
theorem restoresOwn_iff : RestoresOwn stored edited ↔ NoForeignMask stored edited := by
  constructor
  · intro h key typed own htyped hown hne secret hsecret
    obtain ⟨value, hvalue, hrule⟩ := h key typed htyped
    rw [lookup_restored htyped] at hvalue
    obtain rfl := Option.some.inj hvalue
    rw [hown] at hrule
    simp only [if_neg hne, restoreValue, hown] at hrule
    rw [((recorded_storedMasks stored).secrets typed secret).mpr hsecret] at hrule
    exact hrule
  · intro h key typed htyped
    refine ⟨_, lookup_restored htyped, ?_⟩
    cases hown : stored.lookup key with
    | some own =>
      simp only [restoreValue, hown]
      split_ifs with hmask
      · rfl
      · rcases masked_spec stored typed with ⟨hnone, -⟩ | ⟨secret, hsome, honly⟩
        · rw [hnone]
          rfl
        · rw [hsome]
          exact h key typed own htyped hown hmask secret honly
    | none =>
      simp only [restoreValue, hown]
      rcases masked_spec stored typed with ⟨hnone, -⟩ | ⟨secret, hsome, honly⟩
      · rw [hnone]
        exact .inl rfl
      · rw [hsome]
        exact .inr honly

end Restored

end HeaderSecrets
