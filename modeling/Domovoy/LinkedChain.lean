/-
Singly linked lists stored in a heap: a partial map from keys to nodes, each
node naming the key of its successor.
-/
import Mathlib.Data.List.Nodup
import Mathlib.Logic.Function.Basic

namespace LinkedChain

universe u v

variable {K : Type u} {N : Type v}

/-- `Chain link null heap head keys`: following `link` from `head` visits
exactly `keys`, in order, and stops at `null`. -/
def Chain (link : N → K) (null : K) (heap : K → Option N) :
    K → List K → Prop
  | head, [] => head = null
  | head, key :: keys =>
      head = key ∧ key ≠ null ∧
        ∃ node, heap key = some node ∧ Chain link null heap (link node) keys

variable {link : N → K} {null : K} {heap : K → Option N}

/-- The heap determines the chain. -/
theorem Chain.unique {head : K} {left right : List K}
    (hleft : Chain link null heap head left)
    (hright : Chain link null heap head right) : left = right := by
  induction left generalizing head right with
  | nil =>
      cases right with
      | nil => rfl
      | cons key keys =>
          simp only [Chain] at hleft hright
          exact absurd (hright.1.symm.trans hleft) hright.2.1
  | cons key keys ih =>
      simp only [Chain] at hleft
      obtain ⟨rfl, hne, node, hnode, htail⟩ := hleft
      cases right with
      | nil => exact absurd hright hne
      | cons key' keys' =>
          simp only [Chain] at hright
          obtain ⟨rfl, _, node', hnode', htail'⟩ := hright
          rw [hnode] at hnode'
          obtain rfl := Option.some.inj hnode'
          rw [ih htail htail']

/-- Every suffix of a chain is the chain of its own first key. -/
theorem Chain.suffix {head : K} {before after : List K} {key : K}
    (hchain : Chain link null heap head (before ++ key :: after)) :
    Chain link null heap key (key :: after) := by
  induction before generalizing head with
  | nil =>
      obtain ⟨rfl, hrest⟩ := hchain
      exact ⟨rfl, hrest⟩
  | cons first before ih =>
      obtain ⟨_, _, node, _, htail⟩ := hchain
      exact ih htail

/-- A finite chain never returns to a key it has visited. -/
theorem Chain.nodup {head : K} {keys : List K}
    (hchain : Chain link null heap head keys) : keys.Nodup := by
  induction keys generalizing head with
  | nil => exact List.nodup_nil
  | cons key keys ih =>
      obtain ⟨rfl, hne, node, hnode, htail⟩ := id hchain
      refine List.nodup_cons.mpr ⟨fun hmem => ?_, ih htail⟩
      obtain ⟨before, after, hsplit⟩ := List.append_of_mem hmem
      have hagain : Chain link null heap head (head :: after) := by
        rw [hsplit] at htail
        exact htail.suffix
      have hlength := congrArg List.length (hchain.unique hagain)
      simp only [hsplit, List.length_cons, List.length_append] at hlength
      omega

theorem Chain.exists_node {head : K} {keys : List K}
    (hchain : Chain link null heap head keys) {key : K} (hkey : key ∈ keys) :
    ∃ node, heap key = some node := by
  obtain ⟨before, after, rfl⟩ := List.append_of_mem hkey
  obtain ⟨_, _, node, hnode, _⟩ := hchain.suffix
  exact ⟨node, hnode⟩

theorem Chain.ne_null {head : K} {keys : List K}
    (hchain : Chain link null heap head keys) {key : K} (hkey : key ∈ keys) :
    key ≠ null := by
  obtain ⟨before, after, rfl⟩ := List.append_of_mem hkey
  exact hchain.suffix.2.1

/-- A chain only depends on the links of its own nodes. -/
theorem Chain.congr {head : K} {keys : List K} {heap' : K → Option N}
    (hchain : Chain link null heap head keys)
    (hsame : ∀ key ∈ keys, (heap' key).map link = (heap key).map link) :
    Chain link null heap' head keys := by
  induction keys generalizing head with
  | nil => exact hchain
  | cons key keys ih =>
      obtain ⟨rfl, hne, node, hnode, htail⟩ := hchain
      have hlink := hsame head List.mem_cons_self
      rw [hnode, Option.map_some, Option.map_eq_some_iff] at hlink
      obtain ⟨node', hnode', hlink'⟩ := hlink
      refine ⟨rfl, hne, node', hnode', ?_⟩
      rw [hlink']
      exact ih htail fun other hother =>
        hsame other (List.mem_cons_of_mem head hother)

/-- Linking a fresh terminal node behind the last key appends it. -/
theorem Chain.append [DecidableEq K] {head last fresh : K} {keys : List K}
    {lastNode freshNode : N}
    (hchain : Chain link null heap head (keys ++ [last]))
    (hfresh : fresh ∉ keys ++ [last]) (hnull : fresh ≠ null)
    (hlast : link lastNode = fresh) (hend : link freshNode = null) :
    Chain link null
      (Function.update (Function.update heap last (some lastNode))
        fresh (some freshNode))
      head (keys ++ [last, fresh]) := by
  induction keys generalizing head with
  | nil =>
      obtain ⟨rfl, hne, _⟩ := hchain
      have hother : head ≠ fresh := by
        intro heq
        exact hfresh (by simp [heq])
      exact ⟨rfl, hne, lastNode, by simp [hother],
        hlast, hnull, freshNode, by simp, hend⟩
  | cons key keys ih =>
      have hnodup := hchain.nodup
      obtain ⟨rfl, hne, node, hnode, htail⟩ := hchain
      simp only [List.cons_append, List.nodup_cons, List.mem_append,
        List.mem_singleton, not_or] at hnodup
      simp only [List.cons_append, List.mem_cons, not_or] at hfresh
      refine ⟨rfl, hne, node, ?_, ih htail hfresh.2⟩
      rw [Function.update_of_ne (Ne.symm hfresh.1),
        Function.update_of_ne hnodup.1.2, hnode]

end LinkedChain
