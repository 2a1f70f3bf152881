import Mathlib.Data.List.Basic

/-!
# Runs of a transition system

A run is a sequence of labelled steps. `exec` runs a partial step function, `Run.invariant` is
the induction rule for properties of the state and of the labels so far.
-/

namespace Runs

variable {S A : Type}

/-- The steps labelled `as` lead from one state to another. -/
inductive Run (R : S → A → S → Prop) : S → List A → S → Prop
  | nil {s : S} : Run R s [] s
  | cons {s t u : S} {a : A} {as : List A} : R s a t → Run R t as u → Run R s (a :: as) u

/-- What each step preserves holds along every run; the property may depend on the labels so
far. -/
lemma Run.invariant {R : S → A → S → Prop} (I : List A → S → Prop)
    (hstep : ∀ past s a t, R s a t → I past s → I (past ++ [a]) t) {as : List A} {s u : S}
    (h : Run R s as u) (hs : I [] s) : I as u := by
  have hfrom : ∀ past, I past s → I (past ++ as) u := by
    clear hs
    induction h with
    | nil => exact fun past hs => by simpa using hs
    | cons hr _ ih => exact fun past hs => by simpa using ih _ (hstep _ _ _ _ hr hs)
  simpa using hfrom [] hs

lemma Run.append {R : S → A → S → Prop} {s t u : S} {as bs : List A} (h : Run R s as t)
    (h' : Run R t bs u) : Run R s (as ++ bs) u := by
  induction h with
  | nil => exact h'
  | cons hr _ ih => exact .cons hr (ih h')

/-- A state can be reached from another one. -/
def Reaches (R : S → A → S → Prop) (s t : S) : Prop := ∃ as, Run R s as t

lemma Reaches.refl {R : S → A → S → Prop} (s : S) : Reaches R s s := ⟨[], .nil⟩

lemma Reaches.trans {R : S → A → S → Prop} {s t u : S} (h : Reaches R s t) (h' : Reaches R t u) :
    Reaches R s u := by
  obtain ⟨as, has⟩ := h
  obtain ⟨bs, hbs⟩ := h'
  exact ⟨as ++ bs, has.append hbs⟩

lemma Reaches.head {R : S → A → S → Prop} {s t u : S} {a : A} (h : R s a t) (h' : Reaches R t u) :
    Reaches R s u := by
  obtain ⟨as, has⟩ := h'
  exact ⟨a :: as, .cons h has⟩

/-- Steps of one system that another system can follow make runs that it can follow. -/
lemma Run.simulation {B T : Type} {R : S → A → S → Prop} {Q : T → B → T → Prop} (f : S → T)
    (hstep : ∀ s a t, R s a t → Reaches Q (f s) (f t)) {s u : S} {as : List A} (h : Run R s as u) :
    Reaches Q (f s) (f u) := by
  induction h with
  | nil => exact .refl _
  | cons hr _ ih => exact (hstep _ _ _ hr).trans ih

/-- Runs a partial step function. -/
def exec (step : S → A → Option S) : S → List A → Option S
  | s, [] => some s
  | s, a :: as => (step s a).bind fun t => exec step t as

lemma exec_append {step : S → A → Option S} (s : S) (as bs : List A) :
    exec step s (as ++ bs) = (exec step s as).bind fun t => exec step t bs := by
  induction as generalizing s with
  | nil => rfl
  | cons a as ih =>
    simp only [List.cons_append, exec, Option.bind_assoc]
    congr 1
    funext t
    exact ih t

lemma run_of_exec {step : S → A → Option S} {s u : S} {as : List A} (h : exec step s as = some u) :
    Run (fun s a t => step s a = some t) s as u := by
  induction as generalizing s with
  | nil =>
    obtain rfl := Option.some.inj h
    exact .nil
  | cons a as ih =>
    obtain ⟨t, ht, hrest⟩ := Option.bind_eq_some_iff.mp h
    exact .cons ht (ih hrest)

lemma Run.mono {R R' : S → A → S → Prop} (hR : ∀ s a t, R s a t → R' s a t) {as : List A} {s u : S}
    (h : Run R s as u) : Run R' s as u := by
  induction h with
  | nil => exact .nil
  | cons hr _ ih => exact .cons (hR _ _ _ hr) ih

/-- Runs a step function whose steps have to meet a condition. -/
lemma run_of_exec_guarded {step : S → A → Option S} {p : S → A → Bool} {s u : S} {as : List A}
    (h : exec (fun s a => if p s a then step s a else none) s as = some u) :
    Run (fun s a t => step s a = some t ∧ p s a = true) s as u := by
  refine (run_of_exec h).mono fun s a t ht => ?_
  by_cases hp : p s a = true
  · exact ⟨by simpa [hp] using ht, hp⟩
  · simp [hp] at ht

end Runs
