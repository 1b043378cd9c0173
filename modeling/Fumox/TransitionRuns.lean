import Mathlib

/-!
Labelled transition systems with a deterministic effect, their reachable states, and the
invariant rule.  Reachability is relative to a condition on single steps, so a result can speak
about the runs all of whose steps meet it.
-/

namespace TransitionRuns

structure System (σ ε : Type*) where
  Initial : σ → Prop
  Enabled : σ → ε → Prop
  next : σ → ε → σ

variable {σ ε : Type*}

/-- States reached by runs all of whose steps satisfy `Ok`. -/
inductive Reachable (S : System σ ε) (Ok : σ → ε → Prop) : σ → Prop
  | init {s : σ} : S.Initial s → Reachable S Ok s
  | step {s : σ} {e : ε} :
      Reachable S Ok s → S.Enabled s e → Ok s e → Reachable S Ok (S.next s e)

/-- No condition on the steps of a run. -/
def Any : σ → ε → Prop := fun _ _ => True

variable {S : System σ ε} {Ok Ok' : σ → ε → Prop} {s : σ}

theorem Reachable.invariant (Inv : σ → Prop) (hinit : ∀ s, S.Initial s → Inv s)
    (hstep : ∀ s e, Inv s → S.Enabled s e → Ok s e → Inv (S.next s e))
    (h : Reachable S Ok s) : Inv s := by
  induction h with
  | init hs => exact hinit _ hs
  | step _ henabled hok ih => exact hstep _ _ ih henabled hok

theorem Reachable.weaken (h : Reachable S Ok s) (hok : ∀ s e, Ok s e → Ok' s e) :
    Reachable S Ok' s := by
  induction h with
  | init hs => exact .init hs
  | step _ henabled hstep ih => exact .step ih henabled (hok _ _ hstep)

/-- The states after the events `es`, provided each of them is enabled and satisfies `Ok`. -/
def Executes (S : System σ ε) (Ok : σ → ε → Prop) : σ → List ε → Prop
  | _, [] => True
  | s, e :: es => S.Enabled s e ∧ Ok s e ∧ Executes S Ok (S.next s e) es

instance Executes.decidable [∀ s e, Decidable (S.Enabled s e)] [∀ s e, Decidable (Ok s e)] :
    ∀ (s : σ) (es : List ε), Decidable (Executes S Ok s es)
  | _, [] => .isTrue trivial
  | s, e :: es =>
    have := Executes.decidable (S.next s e) es
    inferInstanceAs (Decidable (_ ∧ _ ∧ _))

theorem Reachable.execute (h : Reachable S Ok s) {es : List ε} (hes : Executes S Ok s es) :
    Reachable S Ok (es.foldl S.next s) := by
  induction es generalizing s with
  | nil => exact h
  | cons e es ih =>
    obtain ⟨henabled, hok, hrest⟩ := hes
    exact ih (.step h henabled hok) hrest

end TransitionRuns
