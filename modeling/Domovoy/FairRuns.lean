/-
Infinite runs of a labelled partial step function, in which nothing may happen for a
while, weak fairness, and what leads to what.
-/
import Domovoy.Transition

namespace FairRuns

open Transition

universe u v

variable {S : Type u} {A : Type v} {step : S → A → Option S}

/-- An infinite run; where there is no event the state stays. -/
structure Trace (step : S → A → Option S) where
  state : Nat → S
  event : Nat → Option A
  stays : ∀ n, event n = none → state (n + 1) = state n
  steps : ∀ n label, event n = some label → step (state n) label = some (state (n + 1))

/-- Every step is taken under the condition `ok`. -/
def Trace.Under (trace : Trace step) (ok : S → A → Prop) : Prop :=
  ∀ n label, trace.event n = some label → ok (trace.state n) label

/-- Weak fairness: if from some time on one of the labels `mine` could always be taken
under `ok`, one of them is taken. -/
def Trace.Fair (trace : Trace step) (ok : S → A → Prop) (mine : A → Prop) : Prop :=
  ∀ n, (∀ m, n ≤ m → ∃ label next, mine label ∧ ok (trace.state m) label ∧
      step (trace.state m) label = some next) →
    ∃ m label, n ≤ m ∧ trace.event m = some label ∧ mine label

/-- Whenever `p` holds, `q` holds then or later. -/
def Trace.LeadsTo (trace : Trace step) (p q : S → Prop) : Prop :=
  ∀ n, p (trace.state n) → ∃ m, n ≤ m ∧ q (trace.state m)

variable {trace : Trace step} {ok : S → A → Prop} {mine : A → Prop} {p q r : S → Prop}

/-- What every step keeps is kept from any time on. -/
theorem Trace.stable (inv : S → Prop)
    (hstep : ∀ n label, inv (trace.state n) → trace.event n = some label →
      inv (trace.state (n + 1)))
    {n m : Nat} (hinv : inv (trace.state n)) (hle : n ≤ m) : inv (trace.state m) := by
  induction hle with
  | refl => exact hinv
  | @step m hle ih =>
      cases hevent : trace.event m with
      | none =>
          rw [trace.stays m hevent]
          exact ih
      | some label => exact hstep m label ih hevent

theorem Trace.invariant (inv : S → Prop) (hunder : trace.Under ok)
    (hstep : ∀ state label next, inv state → ok state label →
      step state label = some next → inv next)
    (hinv : inv (trace.state 0)) (n : Nat) : inv (trace.state n) :=
  trace.stable inv
    (fun n label hinv hevent =>
      hstep _ label _ hinv (hunder n label hevent) (trace.steps n label hevent))
    hinv (Nat.zero_le n)

theorem Trace.LeadsTo.trans (hfirst : trace.LeadsTo p q) (hsecond : trace.LeadsTo q r) :
    trace.LeadsTo p r := by
  intro n hp
  obtain ⟨m, hm, hq⟩ := hfirst n hp
  obtain ⟨m', hm', hr⟩ := hsecond m hq
  exact ⟨m', Nat.le_trans hm hm', hr⟩

/-- The rule for weak fairness with a rank: where no step raises the rank or leaves `p`
for anything but `q`, and those of `mine`, of which one can always be taken, lower it. -/
theorem Trace.LeadsTo.of_rank (rank : S → Nat) (hfair : trace.Fair ok mine)
    (henabled : ∀ n, p (trace.state n) → ∃ label next, mine label ∧
      ok (trace.state n) label ∧ step (trace.state n) label = some next)
    (hkeeps : ∀ n label, p (trace.state n) → trace.event n = some label →
      q (trace.state (n + 1)) ∨ p (trace.state (n + 1)) ∧
        rank (trace.state (n + 1)) ≤ rank (trace.state n))
    (hhelps : ∀ n label, p (trace.state n) → trace.event n = some label → mine label →
      q (trace.state (n + 1)) ∨ p (trace.state (n + 1)) ∧
        rank (trace.state (n + 1)) < rank (trace.state n)) :
    trace.LeadsTo p q := by
  have hmain : ∀ bound n, rank (trace.state n) = bound → p (trace.state n) →
      ∃ m, n ≤ m ∧ q (trace.state m) := by
    intro bound
    induction bound using Nat.strongRecOn with
    | ind bound ih =>
        intro n hrank hp
        by_contra hnever
        push Not at hnever
        have hstays : ∀ m, n ≤ m → p (trace.state m) ∧ rank (trace.state m) ≤ bound := by
          intro m hm
          induction hm with
          | refl => exact ⟨hp, Nat.le_of_eq hrank⟩
          | @step m hm hold =>
              cases hevent : trace.event m with
              | none =>
                  rw [trace.stays m hevent]
                  exact hold
              | some label =>
                  rcases hkeeps m label hold.1 hevent with hq | ⟨hp', hle⟩
                  · exact absurd hq (hnever (m + 1) (Nat.le_succ_of_le hm))
                  · exact ⟨hp', Nat.le_trans hle hold.2⟩
        obtain ⟨m, label, hm, hevent, hmine⟩ :=
          hfair n fun m hm => henabled m (hstays m hm).1
        rcases hhelps m label (hstays m hm).1 hevent hmine with hq | ⟨hp', hlt⟩
        · exact hnever (m + 1) (Nat.le_succ_of_le hm) hq
        · obtain ⟨m', hm', hq⟩ :=
            ih _ (Nat.lt_of_lt_of_le hlt (hstays m hm).2) (m + 1) rfl hp'
          exact hnever m' (Nat.le_trans (Nat.le_succ_of_le hm) hm') hq
  exact fun n hp => hmain _ n rfl hp

section FiniteRun

variable {start final : S} {labels : List A}

/-- A run, split at one of its steps. -/
theorem run_split {n : Nat} {label : A} (hrun : run step start labels = some final)
    (hlabel : labels[n]? = some label) :
    ∃ middle next, run step start (labels.take n) = some middle ∧
      step middle label = some next ∧ run step start (labels.take (n + 1)) = some next ∧
        labels = labels.take n ++ (label :: labels.drop (n + 1)) := by
  obtain ⟨hlt, rfl⟩ := List.getElem?_eq_some_iff.mp hlabel
  have hsplit : labels = labels.take n ++ (labels[n] :: labels.drop (n + 1)) := by
    rw [← List.drop_eq_getElem_cons hlt, List.take_append_drop]
  have hwhole := hrun
  rw [hsplit] at hwhole
  obtain ⟨middle, hfirst, hrest⟩ := run_append_eq_some.mp hwhole
  obtain ⟨next, hnext, -⟩ := run_cons_eq_some.mp hrest
  refine ⟨middle, next, hfirst, hnext, ?_, hsplit⟩
  rw [List.take_succ_eq_append_getElem hlt]
  exact run_append_eq_some.mpr ⟨middle, hfirst, run_cons_eq_some.mpr ⟨next, hnext, rfl⟩⟩

/-- A finite run after which nothing happens any more. -/
def Trace.ofRun (hrun : run step start labels = some final) : Trace step where
  state n := (run step start (labels.take n)).getD final
  event n := labels[n]?
  stays := by
    intro n hnone
    have hle := List.getElem?_eq_none_iff.mp hnone
    rw [List.take_of_length_le hle, List.take_of_length_le (Nat.le_succ_of_le hle)]
  steps := by
    intro n label hlabel
    obtain ⟨middle, next, hfirst, hnext, hlater, -⟩ := run_split hrun hlabel
    rw [hfirst, hlater]
    exact hnext

theorem Trace.ofRun_under (hrun : run step start labels = some final)
    (hok : Along step ok start labels) : (Trace.ofRun hrun).Under ok := by
  intro n label hlabel
  obtain ⟨middle, next, hfirst, -, -, hsplit⟩ := run_split hrun hlabel
  rw [hsplit] at hok
  have hmiddle := ((along_append.mp hok).2 middle hfirst).1
  change ok ((run step start (labels.take n)).getD final) label
  rw [hfirst]
  exact hmiddle

/-- It is fair to those who have nothing left to do at its end. -/
theorem Trace.ofRun_fair (hrun : run step start labels = some final)
    (hstuck : ∀ label next, mine label → step final label ≠ some next) :
    (Trace.ofRun hrun).Fair ok mine := by
  intro n henabled
  obtain ⟨label, next, hmine, -, hnext⟩ :=
    henabled (max n labels.length) (Nat.le_max_left n labels.length)
  have hfinal : (Trace.ofRun hrun).state (max n labels.length) = final := by
    change (run step start (labels.take (max n labels.length))).getD final = final
    rw [List.take_of_length_le (Nat.le_max_right n labels.length), hrun]
    rfl
  rw [hfinal] at hnext
  exact absurd hnext (hstuck label next hmine)

end FiniteRun

end FairRuns
