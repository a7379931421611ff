import Mathlib.Data.List.Induction

/-!
# Folds of which only some elements matter

A view of the state of a fold may depend on some of the elements only. It is then the
fold over these elements, so two lists with the same relevant elements, in the same
order, give the same view.
-/

namespace Evlpc.Library

universe u v w
variable {σ : Type u} {ε : Type v} {π : Type w}

/-- A view that irrelevant elements leave alone is the fold over the relevant ones. -/
theorem foldl_view (step : σ → ε → σ) (view : σ → π) (viewStep : π → ε → π) (Relevant : ε → Prop)
    [DecidablePred Relevant]
    (follows : ∀ state element, Relevant element →
      view (step state element) = viewStep (view state) element)
    (ignored : ∀ state element, ¬ Relevant element → view (step state element) = view state)
    (state : σ) (elements : List ε) :
    view (elements.foldl step state) =
      (elements.filter (Relevant ·)).foldl viewStep (view state) := by
  induction elements generalizing state with
  | nil => rfl
  | cons element elements inductionHypothesis =>
    rw [List.foldl_cons, inductionHypothesis, List.filter_cons]
    by_cases relevant : Relevant element
    · rw [if_pos (decide_eq_true relevant), List.foldl_cons, follows state element relevant]
    · rw [if_neg (by simpa using relevant), ignored state element relevant]

/-- Lists with the same relevant elements give the same view. -/
theorem foldl_view_congr (step : σ → ε → σ) (view : σ → π) (viewStep : π → ε → π)
    (Relevant : ε → Prop) [DecidablePred Relevant]
    (follows : ∀ state element, Relevant element →
      view (step state element) = viewStep (view state) element)
    (ignored : ∀ state element, ¬ Relevant element → view (step state element) = view state)
    (state : σ) (elements others : List ε)
    (same : elements.filter (Relevant ·) = others.filter (Relevant ·)) :
    view (elements.foldl step state) = view (others.foldl step state) := by
  rw [foldl_view step view viewStep Relevant follows ignored state elements,
    foldl_view step view viewStep Relevant follows ignored state others, same]

/-- A view that some elements set, whatever it was, is what the last of these sets. -/
theorem foldl_last (step : σ → ε → σ) (view : σ → π) (Sets : ε → Prop) [DecidablePred Sets]
    (value : ε → π)
    (follows : ∀ state element,
      view (step state element) = if Sets element then value element else view state)
    (state : σ) (elements : List ε) :
    view (elements.foldl step state) =
      ((elements.filter (Sets ·)).getLast?.map value).getD (view state) := by
  rw [foldl_view step view (fun _ element => value element) Sets
    (fun state element sets => by rw [follows, if_pos sets])
    (fun state element ignored => by rw [follows, if_neg ignored]) state elements]
  induction elements.filter (Sets ·) using List.reverseRecOn with
  | nil => rfl
  | append_singleton earlier last _ =>
    rw [List.foldl_append, List.getLast?_append]
    rfl

end Evlpc.Library
