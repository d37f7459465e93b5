/-
The maximal runs of list elements with the same key: how a pass over the list builds them
up, and what they are when the list is sorted by the key.
-/
import Mathlib.Data.List.Chain
import Mathlib.Order.Defs.Unbundled

namespace KeyRuns

universe u v

variable {α : Type u} {κ : Type v}

/-- `runs` are the maximal runs of `xs`, each with its key. -/
structure IsRuns (key : α → κ) (runs : List (κ × List α)) (xs : List α) : Prop where
  flatten : runs.flatMap Prod.snd = xs
  nonempty : ∀ run ∈ runs, run.2 ≠ []
  keyed : ∀ run ∈ runs, ∀ x ∈ run.2, key x = run.1
  changes : (runs.map Prod.fst).IsChain (· ≠ ·)

variable {key : α → κ} {runs : List (κ × List α)} {xs : List α}

theorem isRuns_nil : IsRuns key [] [] where
  flatten := rfl
  nonempty := nofun
  keyed := nofun
  changes := List.isChain_nil

theorem isRuns_single (x : α) : IsRuns key [(key x, [x])] [x] where
  flatten := rfl
  nonempty := by simp
  keyed := by simp
  changes := List.isChain_singleton _

/-- The last run goes on. -/
theorem IsRuns.extend {k : κ} {ys : List α} (h : IsRuns key (runs ++ [(k, ys)]) xs) {x : α}
    (hx : key x = k) : IsRuns key (runs ++ [(k, ys ++ [x])]) (xs ++ [x]) where
  flatten := by simp [← h.flatten]
  nonempty := by
    intro run hrun
    rcases List.mem_append.mp hrun with hrun | hrun
    · exact h.nonempty run (List.mem_append_left _ hrun)
    · simp [List.mem_singleton.mp hrun]
  keyed := by
    intro run hrun y hy
    rcases List.mem_append.mp hrun with hrun | hrun
    · exact h.keyed run (List.mem_append_left _ hrun) y hy
    · obtain rfl := List.mem_singleton.mp hrun
      rcases List.mem_append.mp hy with hy | hy
      · exact h.keyed (k, ys) (List.mem_append_right _ List.mem_cons_self) y hy
      · rw [List.mem_singleton.mp hy, hx]
  changes := by simpa using h.changes

/-- A new run starts. -/
theorem IsRuns.start {k : κ} {ys : List α} (h : IsRuns key (runs ++ [(k, ys)]) xs) {x : α}
    (hx : key x ≠ k) : IsRuns key (runs ++ [(k, ys)] ++ [(key x, [x])]) (xs ++ [x]) where
  flatten := by simp [← h.flatten]
  nonempty := by
    intro run hrun
    rcases List.mem_append.mp hrun with hrun | hrun
    · exact h.nonempty run hrun
    · simp [List.mem_singleton.mp hrun]
  keyed := by
    intro run hrun y hy
    rcases List.mem_append.mp hrun with hrun | hrun
    · exact h.keyed run hrun y hy
    · obtain rfl := List.mem_singleton.mp hrun
      rw [List.mem_singleton.mp hy]
  changes := by
    rw [List.map_append, List.isChain_append]
    refine ⟨h.changes, List.isChain_singleton _, ?_⟩
    simpa using hx.symm

/-- Every key of the list has a run, and only those. -/
theorem IsRuns.exists_run_iff (h : IsRuns key runs xs) {k : κ} :
    (∃ run ∈ runs, run.1 = k) ↔ ∃ x ∈ xs, key x = k := by
  constructor
  · rintro ⟨run, hrun, rfl⟩
    obtain ⟨x, hx⟩ := List.exists_mem_of_ne_nil _ (h.nonempty run hrun)
    refine ⟨x, ?_, h.keyed run hrun x hx⟩
    rw [← h.flatten]
    exact List.mem_flatMap.mpr ⟨run, hrun, hx⟩
  · rintro ⟨x, hx, rfl⟩
    rw [← h.flatten] at hx
    obtain ⟨run, hrun, hx⟩ := List.mem_flatMap.mp hx
    exact ⟨run, hrun, (h.keyed run hrun x hx).symm⟩

variable {above : κ → κ → Prop}

theorem isChain_of_weak {keys : List κ}
    (hweak : keys.Pairwise fun k l => k = l ∨ above k l) (hchanges : keys.IsChain (· ≠ ·)) :
    keys.IsChain above := by
  induction keys with
  | nil => exact List.isChain_nil
  | cons k keys ih =>
      rw [List.pairwise_cons] at hweak
      rw [List.isChain_cons] at hchanges ⊢
      refine ⟨fun l hl => ?_, ih hweak.2 hchanges.2⟩
      exact (hweak.1 l (List.mem_of_mem_head? hl)).resolve_left (hchanges.1 l hl)

variable [IsTrans κ above]

/-- The runs of a list that is sorted by its keys have strictly sorted keys. -/
theorem IsRuns.pairwise_keys (h : IsRuns key runs xs)
    (hsorted : xs.Pairwise fun a b => key a = key b ∨ above (key a) (key b)) :
    (runs.map Prod.fst).Pairwise above := by
  have hweak : (runs.map Prod.fst).Pairwise fun k l => k = l ∨ above k l := by
    rw [← h.flatten, List.pairwise_flatMap] at hsorted
    rw [List.pairwise_map]
    refine hsorted.2.imp_of_mem fun {run run'} hrun hrun' hbetween => ?_
    obtain ⟨x, hx⟩ := List.exists_mem_of_ne_nil _ (h.nonempty run hrun)
    obtain ⟨y, hy⟩ := List.exists_mem_of_ne_nil _ (h.nonempty run' hrun')
    rw [← h.keyed run hrun x hx, ← h.keyed run' hrun' y hy]
    exact hbetween x hx y hy
  exact (isChain_of_weak hweak h.changes).pairwise

variable [Std.Irrefl above] [DecidableEq κ]

/-- Each run holds all the elements with its key. -/
theorem IsRuns.eq_filter (h : IsRuns key runs xs)
    (hsorted : xs.Pairwise fun a b => key a = key b ∨ above (key a) (key b))
    {run : κ × List α} (hrun : run ∈ runs) :
    run.2 = xs.filter fun x => key x = run.1 := by
  have hkeys := h.pairwise_keys hsorted
  obtain ⟨before, after, rfl⟩ := List.append_of_mem hrun
  simp only [List.map_append, List.map_cons, List.pairwise_append, List.pairwise_cons,
    List.mem_map, List.mem_cons] at hkeys
  have hothers : ∀ run' ∈ before ++ after,
      run'.2.filter (fun x => key x = run.1) = [] := by
    intro run' hrun'
    rw [List.filter_eq_nil_iff]
    intro x hx hkey
    rcases List.mem_append.mp hrun' with hbefore | hafter
    · have hx' := h.keyed run' (List.mem_append_left _ hbefore) x hx
      have habove := hkeys.2.2 run'.1 ⟨run', hbefore, rfl⟩ run.1 (Or.inl rfl)
      rw [← hx', of_decide_eq_true hkey] at habove
      exact irrefl_of above _ habove
    · have hx' := h.keyed run' (List.mem_append_right _ (List.mem_cons_of_mem _ hafter)) x hx
      have habove := hkeys.2.1.1 run'.1 ⟨run', hafter, rfl⟩
      rw [← hx', of_decide_eq_true hkey] at habove
      exact irrefl_of above _ habove
  have hown : run.2.filter (fun x => key x = run.1) = run.2 := by
    rw [List.filter_eq_self]
    intro x hx
    exact decide_eq_true (h.keyed run (List.mem_append_right _ List.mem_cons_self) x hx)
  have hempty : ∀ others : List (κ × List α), (∀ run' ∈ others, run' ∈ before ++ after) →
      (others.flatMap Prod.snd).filter (fun x => key x = run.1) = [] := by
    intro others hothers'
    rw [List.filter_flatMap, List.flatMap_eq_nil_iff]
    exact fun run' hrun' => hothers run' (hothers' run' hrun')
  rw [← h.flatten, List.flatMap_append, List.flatMap_cons, List.filter_append,
    List.filter_append, hown, hempty before fun _ => List.mem_append_left _,
    hempty after fun _ => List.mem_append_right _, List.nil_append, List.append_nil]

end KeyRuns
