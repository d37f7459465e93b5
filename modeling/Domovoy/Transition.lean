/-
Runs of a labelled partial step function: composition, invariants, conditions
imposed on every step, and simulations between two such functions.
-/
import Mathlib.Data.Option.Basic
import Mathlib.Data.List.Basic

namespace Transition

universe u v w x

variable {S : Type u} {A : Type v} {S' : Type w} {A' : Type x}

/-- Take the labels in order; `none` as soon as one of them is not enabled. -/
def run (step : S → A → Option S) : S → List A → Option S
  | state, [] => some state
  | state, label :: labels => (step state label).bind fun next => run step next labels

/-- Every step of the run is taken under the condition `ok`. -/
def Along (step : S → A → Option S) (ok : S → A → Prop) : S → List A → Prop
  | _, [] => True
  | state, label :: labels =>
      ok state label ∧
        ∀ next, step state label = some next → Along step ok next labels

variable {step : S → A → Option S} {ok : S → A → Prop}

@[simp] theorem run_nil (state : S) : run step state [] = some state := rfl

theorem run_cons_eq_some {state final : S} {label : A} {labels : List A} :
    run step state (label :: labels) = some final ↔
      ∃ next, step state label = some next ∧ run step next labels = some final := by
  simp [run, Option.bind_eq_some_iff]

theorem run_append_eq_some {state final : S} {first second : List A} :
    run step state (first ++ second) = some final ↔
      ∃ middle, run step state first = some middle ∧
        run step middle second = some final := by
  induction first generalizing state with
  | nil => simp
  | cons label first ih =>
      simp only [List.cons_append, run_cons_eq_some, ih]
      constructor
      · rintro ⟨next, hstep, middle, hfirst, hsecond⟩
        exact ⟨middle, ⟨next, hstep, hfirst⟩, hsecond⟩
      · rintro ⟨middle, ⟨next, hstep, hfirst⟩, hsecond⟩
        exact ⟨next, hstep, middle, hfirst, hsecond⟩

theorem along_append {state : S} {first second : List A} :
    Along step ok state (first ++ second) ↔
      Along step ok state first ∧
        ∀ middle, run step state first = some middle →
          Along step ok middle second := by
  induction first generalizing state with
  | nil => simp [Along]
  | cons label first ih =>
      simp only [List.cons_append, Along, ih, run_cons_eq_some]
      constructor
      · rintro ⟨hok, hnext⟩
        refine ⟨⟨hok, fun next hstep => (hnext next hstep).1⟩, ?_⟩
        rintro middle ⟨next, hstep, hrun⟩
        exact (hnext next hstep).2 middle hrun
      · rintro ⟨⟨hok, hnext⟩, hsecond⟩
        exact ⟨hok, fun next hstep => ⟨hnext next hstep, fun middle hrun =>
          hsecond middle ⟨next, hstep, hrun⟩⟩⟩

instance decidableAlong [∀ state label, Decidable (ok state label)] :
    (state : S) → (labels : List A) → Decidable (Along step ok state labels)
  | _, [] => .isTrue trivial
  | state, label :: labels =>
      match hstep : step state label with
      | none =>
          decidable_of_iff (ok state label) (by simp [Along, hstep])
      | some next =>
          have := decidableAlong next labels
          decidable_of_iff (ok state label ∧ Along step ok next labels)
            (by simp [Along, hstep])

/-- An invariant that every step under `ok` preserves holds after every run
whose steps are all under `ok`. -/
theorem run_invariant_along {inv : S → Prop}
    (hstep : ∀ state label next, inv state → ok state label →
      step state label = some next → inv next)
    {state final : S} {labels : List A} (hinv : inv state)
    (hok : Along step ok state labels)
    (hrun : run step state labels = some final) : inv final := by
  induction labels generalizing state with
  | nil =>
      obtain rfl := Option.some.inj hrun
      exact hinv
  | cons label labels ih =>
      obtain ⟨next, hnext, hrest⟩ := run_cons_eq_some.mp hrun
      exact ih (hstep state label next hinv hok.1 hnext)
        (hok.2 next hnext) hrest

theorem along_true {state : S} {labels : List A} :
    Along step (fun _ _ => True) state labels := by
  induction labels generalizing state with
  | nil => trivial
  | cons label labels ih => exact ⟨trivial, fun _ _ => ih⟩

theorem run_invariant {inv : S → Prop}
    (hstep : ∀ state label next, inv state →
      step state label = some next → inv next)
    {state final : S} {labels : List A} (hinv : inv state)
    (hrun : run step state labels = some final) : inv final :=
  run_invariant_along
    (fun state label next hinv (_ : True) => hstep state label next hinv)
    hinv along_true hrun

/-- Conditions along a run may be weakened where an invariant holds. -/
theorem Along.imp {ok' : S → A → Prop} {inv : S → Prop}
    (hstep : ∀ state label next, inv state → ok state label →
      step state label = some next → inv next)
    (himp : ∀ state label, inv state → ok state label → ok' state label)
    {state : S} {labels : List A} (hinv : inv state)
    (hok : Along step ok state labels) : Along step ok' state labels := by
  induction labels generalizing state with
  | nil => trivial
  | cons label labels ih =>
      exact ⟨himp state label hinv hok.1, fun next hnext =>
        ih (hstep state label next hinv hok.1 hnext) (hok.2 next hnext)⟩

theorem Along.and {ok' : S → A → Prop} {state : S} {labels : List A}
    (hok : Along step ok state labels) (hok' : Along step ok' state labels) :
    Along step (fun state label => ok state label ∧ ok' state label) state labels := by
  induction labels generalizing state with
  | nil => trivial
  | cons label labels ih =>
      exact ⟨⟨hok.1, hok'.1⟩, fun next hnext => ih (hok.2 next hnext) (hok'.2 next hnext)⟩

/-- `P` holds in every state of the run, the first and the last included. -/
def Throughout (step : S → A → Option S) (P : S → Prop) (start : S) (labels : List A) :
    Prop :=
  ∀ before, before <+: labels → ∀ state, run step start before = some state → P state

theorem throughout_nil {P : S → Prop} {state : S} :
    Throughout step P state [] ↔ P state := by
  constructor
  · intro hall
    exact hall [] List.nil_prefix state rfl
  · intro hstate before hbefore reached hreach
    rw [List.prefix_nil.mp hbefore] at hreach
    obtain rfl := Option.some.inj hreach
    exact hstate

theorem throughout_cons {P : S → Prop} {state next : S} {label : A} {labels : List A}
    (hstep : step state label = some next) :
    Throughout step P state (label :: labels) ↔
      P state ∧ Throughout step P next labels := by
  constructor
  · intro hall
    refine ⟨hall [] List.nil_prefix state rfl, ?_⟩
    intro before hbefore reached hreach
    apply hall (label :: before) (List.cons_prefix_cons.mpr ⟨rfl, hbefore⟩)
    exact run_cons_eq_some.mpr ⟨next, hstep, hreach⟩
  · rintro ⟨hstate, hall⟩ before hbefore reached hreach
    rcases List.prefix_cons_iff.mp hbefore with rfl | ⟨rest, rfl, hrest⟩
    · obtain rfl := Option.some.inj hreach
      exact hstate
    · obtain ⟨next', hstep', hreach⟩ := run_cons_eq_some.mp hreach
      rw [hstep] at hstep'
      obtain rfl := Option.some.inj hstep'
      exact hall rest hrest reached hreach

/-- Where the condition on a step decides whether the next state is good, a run
stays good exactly when it is taken under that condition; `env` is what the
surroundings are assumed to do. -/
theorem throughout_iff_along (inv : S → Prop) {P : S → Prop} {env : S → A → Prop}
    (hinvStep : ∀ state label next, inv state → env state label → ok state label →
      step state label = some next → inv next)
    (hdecides : ∀ state label next, inv state → env state label →
      step state label = some next → (P next ↔ ok state label))
    {state final : S} {labels : List A} (hinv : inv state) (hstate : P state)
    (henv : Along step env state labels) (hrun : run step state labels = some final) :
    Throughout step P state labels ↔ Along step ok state labels := by
  induction labels generalizing state with
  | nil => exact iff_of_true (throughout_nil.mpr hstate) trivial
  | cons label labels ih =>
      obtain ⟨next, hnext, hrest⟩ := run_cons_eq_some.mp hrun
      have hiff := hdecides state label next hinv henv.1 hnext
      rw [throughout_cons hnext]
      constructor
      · rintro ⟨-, hall⟩
        have hgood := hall [] List.nil_prefix next rfl
        refine ⟨hiff.mp hgood, ?_⟩
        intro next' hnext'
        rw [hnext] at hnext'
        obtain rfl := Option.some.inj hnext'
        have hinvNext := hinvStep state label next hinv henv.1 (hiff.mp hgood) hnext
        exact (ih hinvNext hgood (henv.2 next hnext) hrest).mp hall
      · rintro ⟨hok, hall⟩
        have hinvNext := hinvStep state label next hinv henv.1 hok hnext
        exact ⟨hstate, (ih hinvNext (hiff.mpr hok) (henv.2 next hnext) hrest).mpr
          (hall next hnext)⟩

/-- Two conditions that agree on every state of the run agree along it. -/
theorem along_congr {ok' env : S → A → Prop} (inv : S → Prop)
    (hinvStep : ∀ state label next, inv state → env state label →
      step state label = some next → inv next)
    (hiff : ∀ state label, inv state → env state label →
      (ok state label ↔ ok' state label))
    {state : S} {labels : List A} (hinv : inv state)
    (henv : Along step env state labels) :
    Along step ok state labels ↔ Along step ok' state labels := by
  induction labels generalizing state with
  | nil => exact Iff.rfl
  | cons label labels ih =>
      apply and_congr (hiff state label hinv henv.1)
      apply forall₂_congr
      intro next hnext
      exact ih (hinvStep state label next hinv henv.1 hnext) (henv.2 next hnext)

theorem along_of_forall {state : S} {labels : List A}
    (hall : ∀ label ∈ labels, ∀ state, ok state label) :
    Along step ok state labels := by
  induction labels generalizing state with
  | nil => trivial
  | cons label labels ih =>
      obtain ⟨hlabel, hlabels⟩ := List.forall_mem_cons.mp hall
      exact ⟨hlabel state, fun _ _ => ih hlabels⟩

/-- Every step of a run is enabled. -/
theorem along_enabled {state final : S} {labels : List A}
    (hrun : run step state labels = some final) :
    Along step (fun state label => ∃ next, step state label = some next) state labels := by
  induction labels generalizing state with
  | nil => trivial
  | cons label labels ih =>
      obtain ⟨next, hnext, hrest⟩ := run_cons_eq_some.mp hrun
      refine ⟨⟨next, hnext⟩, fun other hother => ?_⟩
      obtain rfl := Option.some.inj (hnext.symm.trans hother)
      exact ih hrest

/-- A condition on the labels alone. -/
theorem along_iff_forall {p : A → Prop} {state final : S} {labels : List A}
    (hrun : run step state labels = some final) :
    Along step (fun _ label => p label) state labels ↔ ∀ label ∈ labels, p label := by
  constructor
  · intro halong
    induction labels generalizing state with
    | nil => simp
    | cons label labels ih =>
        obtain ⟨next, hnext, hrest⟩ := run_cons_eq_some.mp hrun
        exact List.forall_mem_cons.mpr ⟨halong.1, ih hrest (halong.2 next hnext)⟩
  · intro hall
    exact along_of_forall fun label hlabel _ => hall label hlabel

/-- A map of the states that commutes with every step commutes with every run. -/
theorem run_map {h : S → S} (hstep : ∀ state label,
    step (h state) label = (step state label).map h) (state : S) (labels : List A) :
    run step (h state) labels = (run step state labels).map h := by
  induction labels generalizing state with
  | nil => rfl
  | cons label labels ih =>
      rw [run, run, hstep]
      cases step state label with
      | none => rfl
      | some next => exact ih next

/-- Where what is observed of a state decides whether a step can be taken and what is
observed after it, it decides that of every run. -/
theorem run_observe (inv : S → Prop) {O : Type x} {observe : S → O}
    (hinvStep : ∀ state label next, inv state → step state label = some next → inv next)
    (hdecides : ∀ state state' label, inv state → inv state' →
      observe state = observe state' →
        (step state label).map observe = (step state' label).map observe)
    {state state' : S} (hinv : inv state) (hinv' : inv state')
    (hobserve : observe state = observe state') (labels : List A) :
    (run step state labels).map observe = (run step state' labels).map observe := by
  induction labels generalizing state state' with
  | nil => exact congrArg some hobserve
  | cons label labels ih =>
      have hfirst := hdecides state state' label hinv hinv' hobserve
      rw [run, run]
      cases hnext : step state label with
      | none =>
          rw [hnext] at hfirst
          rw [Option.map_eq_none_iff.mp hfirst.symm]
      | some next =>
          rw [hnext] at hfirst
          obtain ⟨next', hnext', hsame⟩ := Option.map_eq_some_iff.mp hfirst.symm
          rw [hnext']
          exact ih (hinvStep state label next hinv hnext)
            (hinvStep state' label next' hinv' hnext') hsame.symm

/-- How many steps of the run satisfy `p`. -/
def stepsWhere (step : S → A → Option S) (p : S → A → Bool) : S → List A → Nat
  | _, [] => 0
  | state, label :: labels =>
      match step state label with
      | some next => (if p state label then 1 else 0) + stepsWhere step p next labels
      | none => 0

/-- What happens only before something that stays so happens at most once. -/
theorem stepsWhere_le_one (inv spent : S → Prop) {env : S → A → Prop} {p : S → A → Bool}
    (hinvStep : ∀ state label next, inv state → env state label →
      step state label = some next → inv next)
    (hspends : ∀ state label next, inv state → env state label → p state label = true →
      step state label = some next → spent next)
    (hspent : ∀ state label next, inv state → env state label → spent state →
      step state label = some next → spent next ∧ p state label = false)
    {state : S} {labels : List A} (hinv : inv state) (henv : Along step env state labels) :
    stepsWhere step p state labels ≤ 1 ∧
      (spent state → stepsWhere step p state labels = 0) := by
  induction labels generalizing state with
  | nil => exact ⟨Nat.zero_le _, fun _ => rfl⟩
  | cons label labels ih =>
      rw [stepsWhere]
      cases hstep : step state label with
      | none => exact ⟨Nat.zero_le _, fun _ => rfl⟩
      | some next =>
          obtain ⟨hone, hzero⟩ := ih (hinvStep state label next hinv henv.1 hstep)
            (henv.2 next hstep)
          refine ⟨?_, ?_⟩
          · cases hp : p state label with
            | false => simpa using hone
            | true =>
                simp [hzero (hspends state label next hinv henv.1 hp hstep)]
          · intro hstate
            obtain ⟨hnext, hp⟩ := hspent state label next hinv henv.1 hstate hstep
            simp [hp, hzero hnext]

/-- Where a step that satisfies `p` lowers a quantity and one that satisfies `q` raises
it by `earned` at most, the quantity at the start bounds how many of the first there
are. -/
theorem run_countP_le (inv : S → Prop) {potential : S → Nat} {p q : A → Bool}
    {earned : Nat}
    (hinvStep : ∀ state label next, inv state → ok state label →
      step state label = some next → inv next)
    (hspends : ∀ state label next, inv state → ok state label →
      step state label = some next →
      potential next + (if p label then 1 else 0) ≤
        potential state + earned * (if q label then 1 else 0))
    {state final : S} {labels : List A} (hinv : inv state)
    (hok : Along step ok state labels) (hrun : run step state labels = some final) :
    potential final + labels.countP p ≤ potential state + earned * labels.countP q := by
  induction labels generalizing state with
  | nil =>
      obtain rfl := Option.some.inj hrun
      simp
  | cons label labels ih =>
      obtain ⟨next, hnext, hrest⟩ := run_cons_eq_some.mp hrun
      have hfirst := hspends state label next hinv hok.1 hnext
      have hlater := ih (hinvStep state label next hinv hok.1 hnext) (hok.2 next hnext) hrest
      rw [List.countP_cons, List.countP_cons, Nat.mul_add]
      omega

/-- Every run from `state` takes at most `bound` steps, is in `Q` all the time, and
can stop only in `P`. -/
def EndsWithin (step : S → A → Option S) (Q P : S → Prop) (bound : Nat) (state : S) :
    Prop :=
  ∀ labels final, run step state labels = some final →
    labels.length ≤ bound ∧ Q final ∧ ((∀ label, step final label = none) → P final)

theorem EndsWithin.imp {Q Q' P : S → Prop} {bound : Nat} {state : S}
    (himp : ∀ state, Q state → Q' state) (hends : EndsWithin step Q P bound state) :
    EndsWithin step Q' P bound state := by
  intro labels final hrun
  obtain ⟨hlength, hQ, hP⟩ := hends labels final hrun
  exact ⟨hlength, himp final hQ, hP⟩

/-- `state` reaches `final` by some run whose steps are all taken under `ok`. -/
def ReachesAlong (step : S → A → Option S) (ok : S → A → Prop) (state final : S) :
    Prop :=
  ∃ labels, Along step ok state labels ∧ run step state labels = some final

theorem ReachesAlong.refl (state : S) : ReachesAlong step ok state state :=
  ⟨[], trivial, rfl⟩

theorem ReachesAlong.single {state final : S} {label : A} (hok : ok state label)
    (hstep : step state label = some final) : ReachesAlong step ok state final :=
  ⟨[label], ⟨hok, fun _ _ => trivial⟩, run_cons_eq_some.mpr ⟨final, hstep, rfl⟩⟩

theorem ReachesAlong.trans {state middle final : S}
    (hfirst : ReachesAlong step ok state middle)
    (hsecond : ReachesAlong step ok middle final) :
    ReachesAlong step ok state final := by
  obtain ⟨first, hfirstOk, hfirstRun⟩ := hfirst
  obtain ⟨second, hsecondOk, hsecondRun⟩ := hsecond
  refine ⟨first ++ second, along_append.mpr ⟨hfirstOk, ?_⟩,
    run_append_eq_some.mpr ⟨middle, hfirstRun, hsecondRun⟩⟩
  intro middle' hmiddle'
  rw [hfirstRun] at hmiddle'
  obtain rfl := Option.some.inj hmiddle'
  exact hsecondOk

/-- A simulation: under the invariant every concrete step is matched by an
abstract run, possibly an empty one. -/
theorem run_simulates (inv : S → Prop) {step' : S' → A' → Option S'}
    {ok' : S' → A' → Prop} {abs : S → S'}
    (hinvStep : ∀ state label next, inv state → ok state label →
      step state label = some next → inv next)
    (hsim : ∀ state label next, inv state → ok state label →
      step state label = some next → ReachesAlong step' ok' (abs state) (abs next))
    {state final : S} {labels : List A} (hinv : inv state)
    (hok : Along step ok state labels)
    (hrun : run step state labels = some final) :
    ReachesAlong step' ok' (abs state) (abs final) := by
  induction labels generalizing state with
  | nil =>
      obtain rfl := Option.some.inj hrun
      exact .refl _
  | cons label labels ih =>
      obtain ⟨next, hnext, hrest⟩ := run_cons_eq_some.mp hrun
      exact (hsim state label next hinv hok.1 hnext).trans
        (ih (hinvStep state label next hinv hok.1 hnext) (hok.2 next hnext) hrest)

end Transition
