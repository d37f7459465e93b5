/-
One-time initialisation by threads that race for it: the first to set `claimed` runs the
body, effect by effect, and sets `done` behind it.
-/
import Mathlib.Data.List.Basic
import Mathlib.Logic.Function.Basic

namespace OneTime

universe u v

variable {Tid : Type u} {A : Type v}

/-- `place t` is what the body still has to do when thread `t` is in it, and `effect a`
says that `a` has been done. -/
structure Inv (body : List A) (effect : A → Prop) (claimed done : Bool)
    (place : Tid → Option (List A)) : Prop where
  entered : ∀ t rest, place t = some rest → claimed = true
  running : ∀ t rest, place t = some rest → done = false
  started : done = true → claimed = true
  alone : ∀ t t' rest rest', place t = some rest → place t' = some rest' → t = t'
  progress : ∀ t rest, place t = some rest → ∀ a ∈ body, a ∉ rest → effect a
  finished : done = true → ∀ a ∈ body, effect a

variable {body : List A} {effect effect' : A → Prop} {claimed done : Bool}
  {place place' : Tid → Option (List A)}

theorem Inv.initial (body : List A) (effect : A → Prop) :
    Inv body effect false false (fun _ : Tid => none) where
  entered := nofun
  running := nofun
  started := nofun
  alone := nofun
  progress := nofun
  finished := nofun

/-- Threads stay where they are, or leave the body; nothing is undone. -/
theorem Inv.keep (hinv : Inv body effect claimed done place)
    (hplace : ∀ t rest, place' t = some rest → place t = some rest)
    (heffect : ∀ a, effect a → effect' a) : Inv body effect' claimed done place' where
  entered := fun t rest ht => hinv.entered t rest (hplace t rest ht)
  running := fun t rest ht => hinv.running t rest (hplace t rest ht)
  started := hinv.started
  alone := fun t t' rest rest' ht ht' =>
    hinv.alone t t' rest rest' (hplace t rest ht) (hplace t' rest' ht')
  progress := fun t rest ht a ha hrest =>
    heffect a (hinv.progress t rest (hplace t rest ht) a ha hrest)
  finished := fun hdone a ha => heffect a (hinv.finished hdone a ha)

variable [DecidableEq Tid]

/-- A thread stays where it is in the body, or leaves it. -/
theorem Inv.stay (hinv : Inv body effect claimed done place) {t : Tid}
    {onward : Option (List A)} (ht : ∀ rest, onward = some rest → place t = some rest)
    (heffect : ∀ a, effect a → effect' a) :
    Inv body effect' claimed done (Function.update place t onward) := by
  apply hinv.keep ?_ heffect
  intro t' rest ht'
  by_cases hsame : t' = t
  · rw [hsame, Function.update_self] at ht'
    rw [hsame]
    exact ht rest ht'
  · rwa [Function.update_of_ne hsame] at ht'

/-- The thread that sets `claimed` first enters the body. -/
theorem Inv.claim (hinv : Inv body effect false done place) (t : Tid) :
    Inv body effect true done (Function.update place t (some body)) := by
  have hempty : ∀ t' rest, place t' ≠ some rest := by
    intro t' rest ht'
    exact absurd (hinv.entered t' rest ht') nofun
  have hdone : done = false := by
    cases hdone : done with
    | false => rfl
    | true => exact absurd (hinv.started hdone) nofun
  have honly : ∀ t' rest, Function.update place t (some body) t' = some rest →
      t' = t ∧ rest = body := by
    intro t' rest ht'
    by_cases hsame : t' = t
    · rw [hsame, Function.update_self] at ht'
      exact ⟨hsame, (Option.some.inj ht').symm⟩
    · rw [Function.update_of_ne hsame] at ht'
      exact absurd ht' (hempty t' rest)
  refine ⟨fun _ _ _ => rfl, fun _ _ _ => hdone, fun _ => rfl, ?_, ?_, ?_⟩
  · intro t₁ t₂ rest₁ rest₂ h₁ h₂
    rw [(honly t₁ rest₁ h₁).1, (honly t₂ rest₂ h₂).1]
  · intro t' rest ht' a ha hrest
    rw [(honly t' rest ht').2] at hrest
    exact absurd ha hrest
  · intro habsurd
    rw [hdone] at habsurd
    contradiction

/-- The thread in the body has seen to one more effect. -/
theorem Inv.assign (hinv : Inv body effect claimed done place) {t : Tid} {a : A}
    {rest : List A} (ht : place t = some (a :: rest)) (ha : effect' a)
    (heffect : ∀ b, effect b → effect' b) :
    Inv body effect' claimed done (Function.update place t (some rest)) := by
  have hcases : ∀ t' rest', Function.update place t (some rest) t' = some rest' →
      ∃ before, place t' = some before ∧ (t' = t ∧ rest' = rest ∨ before = rest') := by
    intro t' rest' ht'
    by_cases hsame : t' = t
    · rw [hsame, Function.update_self] at ht'
      exact ⟨a :: rest, by rw [hsame, ht], Or.inl ⟨hsame, (Option.some.inj ht').symm⟩⟩
    · rw [Function.update_of_ne hsame] at ht'
      exact ⟨rest', ht', Or.inr rfl⟩
  refine ⟨?_, ?_, hinv.started, ?_, ?_, fun hdone b hb => heffect b (hinv.finished hdone b hb)⟩
  · intro t' rest' ht'
    obtain ⟨before, hbefore, -⟩ := hcases t' rest' ht'
    exact hinv.entered t' before hbefore
  · intro t' rest' ht'
    obtain ⟨before, hbefore, -⟩ := hcases t' rest' ht'
    exact hinv.running t' before hbefore
  · intro t₁ t₂ rest₁ rest₂ h₁ h₂
    obtain ⟨before₁, hbefore₁, -⟩ := hcases t₁ rest₁ h₁
    obtain ⟨before₂, hbefore₂, -⟩ := hcases t₂ rest₂ h₂
    exact hinv.alone t₁ t₂ before₁ before₂ hbefore₁ hbefore₂
  · intro t' rest' ht' b hb hrest
    obtain ⟨before, hbefore, ⟨rfl, rfl⟩ | rfl⟩ := hcases t' rest' ht'
    · by_cases hba : b = a
      · rw [hba]
        exact ha
      · refine heffect b (hinv.progress t' (a :: rest') ht b hb ?_)
        simp [hba, hrest]
    · exact heffect b (hinv.progress t' before hbefore b hb hrest)

/-- The thread at the end of the body sets `done`. -/
theorem Inv.finish (hinv : Inv body effect claimed done place) {t : Tid}
    (ht : place t = some []) :
    Inv body effect claimed true (Function.update place t none) := by
  have hempty : ∀ t' rest, Function.update place t none t' ≠ some rest := by
    intro t' rest ht'
    by_cases hsame : t' = t
    · rw [hsame, Function.update_self] at ht'
      contradiction
    · rw [Function.update_of_ne hsame] at ht'
      exact hsame (hinv.alone t' t rest [] ht' ht)
  exact ⟨fun t' rest ht' => absurd ht' (hempty t' rest),
    fun t' rest ht' => absurd ht' (hempty t' rest), fun _ => hinv.entered t [] ht,
    fun t' _ rest _ ht' => absurd ht' (hempty t' rest),
    fun t' rest ht' => absurd ht' (hempty t' rest),
    fun _ a ha => hinv.progress t [] ht a ha List.not_mem_nil⟩

end OneTime
