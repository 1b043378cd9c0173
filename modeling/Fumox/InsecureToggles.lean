import Fumox.ProxyFingerprint

/-!
The certificate toggles of an entry in its fingerprint.  Every truthy spelling contributes the same
pair, a falsy one none, so the fingerprint sees how many truthy spellings there are.
-/

namespace InsecureToggles

open RustText ProxyModels ProxyFingerprint

/-- A parameter under one of the spellings of the toggle, whatever its value. -/
def isToggle (param : Param) : Bool :=
  insecureAliases.contains (toAsciiLowercase param.key)

structure SameButToggles (a b : ProxyEntry) : Prop where
  scheme : a.scheme = b.scheme
  name : a.name = b.name
  host : a.host = b.host
  port : a.port = b.port
  credential : a.credential = b.credential
  rawPath : a.rawPath = b.rawPath
  rawLine : a.rawLine = b.rawLine
  params : a.params.filter (!isToggle ·) = b.params.filter (!isToggle ·)

def toggleCount (params : List Param) : ℕ :=
  params.countP isInsecureParam

def insecurePair : Text × Text := ("insecure", "1")

theorem insecureParam_iff {param : Param} :
    isInsecureParam param = true ↔ isToggle param = true ∧ isTruthyToggle param.value = true := by
  rw [isInsecureParam, Bool.and_eq_true]
  rfl

theorem toggle_key (scheme : Scheme) : ∀ key ∈ insecureAliases,
    canonicalKey scheme key = key ∧ securityParams.contains key = true := by
  cases scheme <;> decide

theorem securityPair_toggle {scheme : Scheme} {param : Param} (h : isToggle param = true) :
    securityPair scheme param =
      if isTruthyToggle param.value then some insecurePair else none := by
  have hmem := List.contains_iff_mem.mp h
  obtain ⟨hkey, hsecurity⟩ := toggle_key scheme _ hmem
  have hpair : securityPair scheme param =
      if securityParams.contains (canonicalKey scheme (toAsciiLowercase param.key)) then
        normalizeInsecureAlias (canonicalKey scheme (toAsciiLowercase param.key)) param.value
      else none := rfl
  rw [hpair, hkey, if_pos hsecurity]
  exact if_pos h

theorem securityPairs_perm (scheme : Scheme) (params : List Param) :
    (params.filterMap (securityPair scheme)).Perm
      (List.replicate (toggleCount params) insecurePair ++
        (params.filter (!isToggle ·)).filterMap (securityPair scheme)) := by
  induction params with
  | nil => exact List.Perm.refl _
  | cons p params ih =>
    by_cases htoggle : isToggle p = true
    · have hskip : (p :: params).filter (!isToggle ·) = params.filter (!isToggle ·) := by
        rw [List.filter_cons, htoggle]
        rfl
      rw [hskip]
      by_cases htruthy : isTruthyToggle p.value = true
      · have hcount : toggleCount (p :: params) = toggleCount params + 1 :=
          List.countP_cons_of_pos (insecureParam_iff.mpr ⟨htoggle, htruthy⟩)
        rw [List.filterMap_cons_some ((securityPair_toggle htoggle).trans (if_pos htruthy)), hcount,
          List.replicate_succ, List.cons_append]
        exact ih.cons _
      · have hcount : toggleCount (p :: params) = toggleCount params :=
          List.countP_cons_of_neg fun h => htruthy (insecureParam_iff.mp h).2
        rw [List.filterMap_cons_none ((securityPair_toggle htoggle).trans (if_neg htruthy)), hcount]
        exact ih
    · have hkeep : (p :: params).filter (!isToggle ·) = p :: params.filter (!isToggle ·) := by
        rw [List.filter_cons, Bool.eq_false_iff.mpr htoggle]
        rfl
      have hcount : toggleCount (p :: params) = toggleCount params :=
        List.countP_cons_of_neg fun h => htoggle (insecureParam_iff.mp h).1
      rw [hkeep, hcount]
      cases hpair : securityPair scheme p with
      | none => rw [List.filterMap_cons_none hpair, List.filterMap_cons_none hpair]; exact ih
      | some pair =>
        rw [List.filterMap_cons_some hpair, List.filterMap_cons_some hpair]
        exact (ih.cons pair).trans List.perm_middle.symm

theorem count_eq_of_perm {n m : ℕ} {rest : List (Text × Text)}
    (h : (List.replicate n insecurePair ++ rest).Perm (List.replicate m insecurePair ++ rest)) :
    n = m := by
  have hlength := h.length_eq
  simp only [List.length_append, List.length_replicate] at hlength
  omega

theorem security_perm_iff {a b : ProxyEntry} (h : SameButToggles a b) :
    (securityPairs a).Perm (securityPairs b) ↔ toggleCount a.params = toggleCount b.params := by
  have ha := securityPairs_perm a.scheme a.params
  have hb := securityPairs_perm b.scheme b.params
  rw [h.scheme, h.params] at ha
  unfold securityPairs
  rw [h.scheme]
  constructor
  · intro hperm
    exact count_eq_of_perm ((ha.symm.trans hperm).trans hb)
  · intro hcount
    rw [hcount] at ha
    exact ha.trans hb.symm

variable {sha256 : List UInt8 → List UInt8}

theorem fingerprint_iff_count (hsha : Function.Injective sha256) {a b : ProxyEntry}
    (h : SameButToggles a b) :
    fingerprint sha256 a = fingerprint sha256 b ↔
      toggleCount a.params = toggleCount b.params := by
  rw [fingerprint_eq_iff hsha, h.scheme, h.host, h.port, h.credential, security_perm_iff h]
  simp only [true_and]

def verificationOff (entry : ProxyEntry) : Bool :=
  entry.params.any isInsecureParam

/-- Entries that agree on whether verification is off share their fingerprint exactly when they
also agree on how often they say so. -/
theorem toggles_fold_iff (hsha : Function.Injective sha256) (a b : ProxyEntry)
    (h : SameButToggles a b) :
    (verificationOff a = verificationOff b →
        fingerprint sha256 a = fingerprint sha256 b) ↔
      (verificationOff a = verificationOff b →
        toggleCount a.params = toggleCount b.params) :=
  imp_congr_right fun _ => fingerprint_iff_count hsha h

section Samples

def toggleDigest : List UInt8 → List UInt8 :=
  tableDigest [
    (bytes "vless|example.com|443|u|insecure=1",
      [250, 112, 65, 66, 244, 203, 202, 117, 255, 109, 115, 81, 123, 91, 87, 73, 64, 92, 5, 20, 90,
        151, 29, 106, 64, 209, 234, 2, 224, 223, 131, 131]),
    (bytes "vless|example.com|443|u|insecure=1&insecure=1",
      [143, 41, 181, 206, 27, 7, 32, 193, 116, 84, 139, 45, 234, 95, 188, 226, 107, 176, 76, 223,
        18, 214, 43, 207, 198, 213, 5, 52, 74, 99, 181, 60])]

theorem toggleDigest_injective : Function.Injective toggleDigest :=
  tableDigest_injective (by decide) (by decide)

def toggled (params : List Param) : ProxyEntry :=
  sampleEntry "node" "example.com" params

theorem toggled_same {params params' : List Param} (hparams : params.all isToggle = true)
    (hparams' : params'.all isToggle = true) : SameButToggles (toggled params) (toggled params') where
  scheme := rfl
  name := rfl
  host := rfl
  port := rfl
  credential := rfl
  rawPath := rfl
  rawLine := rfl
  params := by
    have hnone : ∀ l : List Param, l.all isToggle = true → l.filter (!isToggle ·) = [] := by
      intro l hl
      apply List.filter_eq_nil_iff.mpr
      intro p hp
      rw [List.all_eq_true.mp hl p hp]
      exact Bool.false_ne_true
    exact (hnone _ hparams).trans (hnone _ hparams').symm

/-- Two spellings of one toggle, once each. -/
theorem toggles_fold_iff_sample :
    (verificationOff (toggled [⟨"allowInsecure", "1", true⟩]) =
        verificationOff (toggled [⟨"skip-cert-verify", "yes", true⟩]) →
      fingerprint toggleDigest (toggled [⟨"allowInsecure", "1", true⟩]) =
        fingerprint toggleDigest (toggled [⟨"skip-cert-verify", "yes", true⟩])) ↔
    (verificationOff (toggled [⟨"allowInsecure", "1", true⟩]) =
        verificationOff (toggled [⟨"skip-cert-verify", "yes", true⟩]) →
      toggleCount (toggled [⟨"allowInsecure", "1", true⟩]).params =
        toggleCount (toggled [⟨"skip-cert-verify", "yes", true⟩]).params) :=
  toggles_fold_iff toggleDigest_injective _ _ (toggled_same (by decide) (by decide))

/-- Said once and said twice: verification is off in both entries, the fingerprints differ. -/
theorem repeated_toggle_splits_fingerprint :
    SameButToggles (toggled [⟨"insecure", "1", true⟩])
        (toggled [⟨"insecure", "1", true⟩, ⟨"allowInsecure", "true", true⟩]) ∧
      verificationOff (toggled [⟨"insecure", "1", true⟩]) = true ∧
      verificationOff
        (toggled [⟨"insecure", "1", true⟩, ⟨"allowInsecure", "true", true⟩]) = true ∧
      fingerprint toggleDigest (toggled [⟨"insecure", "1", true⟩]) ≠
        fingerprint toggleDigest
          (toggled [⟨"insecure", "1", true⟩, ⟨"allowInsecure", "true", true⟩]) := by
  have hsame : SameButToggles (toggled [⟨"insecure", "1", true⟩])
      (toggled [⟨"insecure", "1", true⟩, ⟨"allowInsecure", "true", true⟩]) :=
    toggled_same (by decide) (by decide)
  refine ⟨hsame, by decide, by decide, ?_⟩
  intro h
  have hcount := (fingerprint_iff_count toggleDigest_injective hsame).mp h
  exact absurd hcount (by decide)

end Samples

end InsecureToggles
