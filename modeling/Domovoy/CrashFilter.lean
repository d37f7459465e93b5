/-
The crash handler on Windows: the top-level exception filter of the process, and
what `Install` and `Uninstall` do to it.
-/
import Domovoy.Config
import Domovoy.Transition

namespace Domovoy

open WordAlign Transition

inductive ExceptionFilter where
  | unhandledExceptionFilter
  | application (address : Word)
deriving DecidableEq, Repr

/-- A filter pointer, null when it is `none`. -/
abbrev FilterPtr := Option ExceptionFilter

/-- The pointer that an application has set. -/
def FilterPtr.ofApplication (filter : Option Word) : FilterPtr :=
  filter.map .application

structure FilterHandler where
  installed : Bool
  previousFilter : FilterPtr
deriving DecidableEq, Repr

def FilterHandler.initial : FilterHandler where
  installed := false
  previousFilter := none

/-- The handler and the top-level filter of the process. -/
structure FilterWorld where
  handler : FilterHandler
  topLevel : FilterPtr
deriving DecidableEq, Repr

def FilterWorld.initial (filter : Option Word) : FilterWorld where
  handler := FilterHandler.initial
  topLevel := .ofApplication filter

/-- `SetUnhandledExceptionFilter`: the filter that was set before, and the process
with the new one. -/
def FilterWorld.setUnhandledExceptionFilter (filter : FilterPtr) (world : FilterWorld) :
    FilterPtr × FilterWorld :=
  (world.topLevel, { world with topLevel := filter })

def FilterWorld.install (world : FilterWorld) : FilterWorld :=
  if world.handler.installed then world
  else
    let world := { world with handler := { world.handler with installed := true } }
    -- the flag that is tested here was set just before
    if world.handler.installed = false then
      let (previous, world) :=
        world.setUnhandledExceptionFilter (some .unhandledExceptionFilter)
      { world with handler := { world.handler with previousFilter := previous } }
    else world

def FilterWorld.uninstall (world : FilterWorld) : FilterWorld :=
  if world.handler.installed = false then world
  else
    let world := { world with handler := { world.handler with installed := false } }
    let (_, world) := world.setUnhandledExceptionFilter world.handler.previousFilter
    { world with handler := { world.handler with previousFilter := none } }

inductive FilterCall where
  | install
  | uninstall
deriving DecidableEq, Repr

def FilterWorld.step (world : FilterWorld) : FilterCall → Option FilterWorld
  | .install => some world.install
  | .uninstall => some world.uninstall

/-- The flag, the saved filter and the filter of the process agree. -/
structure FilterWorld.Consistent (filter : FilterPtr) (world : FilterWorld) : Prop where
  installed_iff :
    world.handler.installed = true ↔ world.topLevel = some .unhandledExceptionFilter
  previous : world.handler.installed = true → world.handler.previousFilter = filter
  restored : world.handler.installed = false → world.topLevel = filter

theorem FilterPtr.ofApplication_ne (filter : Option Word) :
    FilterPtr.ofApplication filter ≠ some .unhandledExceptionFilter := by
  cases filter <;> simp [ofApplication]

/-- `Install` raises the flag and leaves both filters as they are. -/
theorem FilterWorld.install_eq (world : FilterWorld) :
    world.install =
      { world with handler := { world.handler with installed := true } } := by
  obtain ⟨⟨installed, previous⟩, topLevel⟩ := world
  cases installed <;> rfl

theorem FilterWorld.uninstall_of_installed {world : FilterWorld}
    (hinstalled : world.handler.installed = true) :
    world.uninstall =
      { handler := FilterHandler.initial, topLevel := world.handler.previousFilter } := by
  simp [uninstall, hinstalled, setUnhandledExceptionFilter, FilterHandler.initial]

theorem FilterWorld.uninstall_of_not_installed {world : FilterWorld}
    (hinstalled : world.handler.installed = false) : world.uninstall = world := by
  simp [uninstall, hinstalled]

/-- The handler's own filter is neither set nor saved. -/
structure FilterWorld.NeverSet (world : FilterWorld) : Prop where
  previous : world.handler.previousFilter = none
  topLevel : world.topLevel ≠ some .unhandledExceptionFilter

theorem FilterWorld.initial_neverSet (filter : Option Word) :
    (FilterWorld.initial filter).NeverSet where
  previous := rfl
  topLevel := FilterPtr.ofApplication_ne filter

theorem FilterWorld.NeverSet.install {world : FilterWorld} (hinv : world.NeverSet) :
    world.install.NeverSet := by
  rw [install_eq]
  exact ⟨hinv.previous, hinv.topLevel⟩

/-- What is put back is the saved filter: none. -/
theorem FilterWorld.NeverSet.uninstall_topLevel {world : FilterWorld}
    (hinv : world.NeverSet) :
    world.uninstall.topLevel = if world.handler.installed then none else world.topLevel := by
  cases hinstalled : world.handler.installed with
  | true =>
      rw [uninstall_of_installed hinstalled]
      exact hinv.previous
  | false =>
      rw [uninstall_of_not_installed hinstalled]
      rfl

theorem FilterWorld.NeverSet.uninstall {world : FilterWorld} (hinv : world.NeverSet) :
    world.uninstall.NeverSet where
  previous := by
    cases hinstalled : world.handler.installed with
    | true =>
        rw [uninstall_of_installed hinstalled]
        rfl
    | false =>
        rw [uninstall_of_not_installed hinstalled]
        exact hinv.previous
  topLevel := by
    rw [hinv.uninstall_topLevel]
    split
    · exact (Option.some_ne_none _).symm
    · exact hinv.topLevel

/-- No sequence of calls makes `UnhandledExceptionFilter` the filter of the process. -/
theorem unhandledExceptionFilter_never_set (filter : Option Word)
    (calls : List FilterCall) (final : FilterWorld)
    (hrun : run FilterWorld.step (FilterWorld.initial filter) calls = some final) :
    final.topLevel ≠ some .unhandledExceptionFilter := by
  have hstep : ∀ (world : FilterWorld) call next, world.NeverSet →
      world.step call = some next → next.NeverSet := by
    intro world call next hinv hstep
    cases call with
    | install =>
        obtain rfl := Option.some.inj hstep
        exact hinv.install
    | uninstall =>
        obtain rfl := Option.some.inj hstep
        exact hinv.uninstall
  have hinv : final.NeverSet :=
    run_invariant hstep (FilterWorld.initial_neverSet filter) hrun
  exact hinv.topLevel

/-- The first `Install` breaks the law; an `Uninstall` before it does nothing. -/
theorem FilterWorld.step_consistent_iff {filter : Option Word}
    {world next : FilterWorld} {call : FilterCall}
    (hdown : world = FilterWorld.initial filter)
    (hstep : world.step call = some next) :
    next.Consistent (.ofApplication filter) ↔ call ≠ .install := by
  subst hdown
  cases call with
  | install =>
      obtain rfl := Option.some.inj hstep
      rw [install_eq]
      refine iff_of_false ?_ (not_not_intro rfl)
      intro hconsistent
      exact FilterPtr.ofApplication_ne filter (hconsistent.installed_iff.mp rfl)
  | uninstall =>
      obtain rfl := Option.some.inj hstep
      rw [uninstall_of_not_installed rfl]
      refine iff_of_true ⟨?_, ?_, fun _ => rfl⟩ FilterCall.noConfusion
      · exact iff_of_false Bool.false_ne_true (FilterPtr.ofApplication_ne filter)
      · exact fun hinstalled => absurd hinstalled Bool.false_ne_true

/-- With any filter that the application had set, the three pieces of state agree
throughout the run if and only if it never calls `Install`. -/
theorem filter_consistent_iff (filter : Option Word) (calls : List FilterCall)
    (final : FilterWorld)
    (hrun : run FilterWorld.step (FilterWorld.initial filter) calls = some final) :
    Throughout FilterWorld.step (FilterWorld.Consistent (.ofApplication filter))
        (FilterWorld.initial filter) calls ↔
      ∀ call ∈ calls, call ≠ .install := by
  have hconsistent :
      (FilterWorld.initial filter).Consistent (.ofApplication filter) := by
    refine ⟨?_, ?_, fun _ => rfl⟩
    · exact iff_of_false Bool.false_ne_true (FilterPtr.ofApplication_ne filter)
    · exact fun hinstalled => absurd hinstalled Bool.false_ne_true
  have henv : Along FilterWorld.step (fun _ _ => True) (FilterWorld.initial filter) calls :=
    along_true
  rw [← along_iff_forall hrun]
  apply throughout_iff_along (fun world => world = FilterWorld.initial filter)
    _ _ rfl hconsistent henv hrun
  · intro world call next hdown _ hok hstep
    subst hdown
    cases call with
    | install => exact absurd rfl hok
    | uninstall => exact (Option.some.inj hstep).symm
  · intro world call next hdown _ hstep
    exact FilterWorld.step_consistent_iff hdown hstep

namespace FilterWitness

/-- An application filter is set and `Uninstall` is called twice. -/
theorem uninstall_consistent_iff :
    Throughout FilterWorld.step (FilterWorld.Consistent (.ofApplication (some 0x401000)))
        (FilterWorld.initial (some 0x401000)) [.uninstall, .uninstall] ↔
      ∀ call ∈ [FilterCall.uninstall, .uninstall], call ≠ .install :=
  filter_consistent_iff (some 0x401000) [.uninstall, .uninstall] _ rfl

/-- After `Install` and `Uninstall` the filter of the application is gone. -/
theorem oneCycle_filter_lost :
    ¬ Throughout FilterWorld.step
      (FilterWorld.Consistent (.ofApplication (some 0x401000)))
      (FilterWorld.initial (some 0x401000)) [.install, .uninstall] := by
  intro hall
  have hfinal := hall _ (List.prefix_refl _) _ rfl
  exact absurd (hfinal.restored rfl) (by decide)

end FilterWitness

end Domovoy
