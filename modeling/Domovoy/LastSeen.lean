/-
A watch over things that come and go under keys that are handed on: what is seen under a
key is compared with what was last seen under it, whichever thing held it then.
-/
import Domovoy.Transition
import Mathlib.Data.List.Nodup
import Mathlib.Logic.Function.Basic

namespace LastSeen

open Transition

universe u v w

variable {Thing : Type u} {Key : Type v} {Val : Type w}

/-- What was seen under a key, and of which thing. -/
structure Seen (Thing : Type u) (Key : Type v) (Val : Type w) where
  thing : Thing
  key : Key
  val : Val

variable (fires : Val → Val → Prop) [DecidableRel fires]

/-- Whether what is seen fires against what was last seen under its key. -/
def report (last : Key → Option Val) (seen : Seen Thing Key Val) : List Key :=
  match last seen.key with
  | some earlier => if fires earlier seen.val then [seen.key] else []
  | none => []

variable [DecidableEq Key]

/-- The keys that a scan reports, and what was last seen under each after it. -/
def scan : List (Seen Thing Key Val) → (Key → Option Val) → List Key × (Key → Option Val)
  | [], last => ([], last)
  | seen :: rest, last =>
      let (more, last') := scan rest (Function.update last seen.key (some seen.val))
      (report fires last seen ++ more, last')

/-- All that was seen since the watch began, latest first. -/
abbrev History (Thing : Type u) (Key : Type v) (Val : Type w) :=
  List (Seen Thing Key Val)

def History.lastOfKey (history : History Thing Key Val) (key : Key) :
    Option (Seen Thing Key Val) :=
  history.find? fun earlier => earlier.key = key

/-- The map of the watch holds what was last seen under each key. -/
def History.Kept (history : History Thing Key Val) (last : Key → Option Val) : Prop :=
  ∀ key, last key = (history.lastOfKey key).map Seen.val

variable {fires} {history : History Thing Key Val} {last : Key → Option Val}
  {observed : List (Seen Thing Key Val)} {one : Seen Thing Key Val}

omit [DecidableEq Key] in
theorem mem_report {key : Key} :
    key ∈ report fires last one ↔ key = one.key ∧
      ∃ earlier, last one.key = some earlier ∧ fires earlier one.val := by
  rw [report]
  cases last one.key with
  | none => simp
  | some earlier => by_cases hfires : fires earlier one.val <;> simp [hfires]

theorem scan_last_of_not_mem {key : Key} (hnot : key ∉ observed.map Seen.key) :
    (scan fires observed last).2 key = last key := by
  induction observed generalizing last with
  | nil => rfl
  | cons first rest ih =>
      simp only [List.map_cons, List.mem_cons, not_or] at hnot
      rw [scan]
      exact (ih hnot.2).trans (Function.update_of_ne hnot.1 _ _)

theorem scan_last_of_mem (hnodup : (observed.map Seen.key).Nodup) (hmem : one ∈ observed) :
    (scan fires observed last).2 one.key = some one.val := by
  induction observed generalizing last with
  | nil => simp at hmem
  | cons first rest ih =>
      obtain ⟨hfirst, hrest⟩ := List.nodup_cons.mp hnodup
      rw [scan]
      rcases List.mem_cons.mp hmem with rfl | hmem
      · exact (scan_last_of_not_mem hfirst).trans (Function.update_self ..)
      · exact ih hrest hmem

theorem mem_map_of_mem_scan {key : Key} (hmem : key ∈ (scan fires observed last).1) :
    key ∈ observed.map Seen.key := by
  induction observed generalizing last with
  | nil => simp [scan] at hmem
  | cons first rest ih =>
      rw [scan] at hmem
      rw [List.map_cons, List.mem_cons]
      rcases List.mem_append.mp hmem with hfirst | hlater
      · exact Or.inl (mem_report.mp hfirst).1
      · exact Or.inr (ih hlater)

/-- Where every key is listed once, a scan compares with the map as it was before. -/
theorem mem_scan (hnodup : (observed.map Seen.key).Nodup) (hmem : one ∈ observed) :
    one.key ∈ (scan fires observed last).1 ↔
      ∃ earlier, last one.key = some earlier ∧ fires earlier one.val := by
  induction observed generalizing last with
  | nil => simp at hmem
  | cons first rest ih =>
      obtain ⟨hfirst, hrest⟩ := List.nodup_cons.mp hnodup
      rw [scan]
      change _ ∈ _ ++ _ ↔ _
      rw [List.mem_append, mem_report]
      rcases List.mem_cons.mp hmem with rfl | hmem
      · have hlater : one.key ∉ (scan fires rest
            (Function.update last one.key (some one.val))).1 :=
          fun hreported => hfirst (mem_map_of_mem_scan hreported)
        simp only [hlater, or_false, true_and]
      · have hne : one.key ≠ first.key :=
          fun heq => hfirst (heq ▸ List.mem_map_of_mem hmem)
        rw [ih hrest hmem, Function.update_of_ne hne]
        simp only [hne, false_and, false_or]

/-- A scan keeps the map up to date. -/
theorem History.Kept.scan (hkept : history.Kept last)
    (hnodup : (observed.map Seen.key).Nodup) :
    History.Kept (observed.reverse ++ history) (LastSeen.scan fires observed last).2 := by
  intro key
  rw [lastOfKey, List.find?_append]
  cases hfind : observed.reverse.find? fun one => one.key = key with
  | some found =>
      have hmem := List.mem_reverse.mp (List.mem_of_find?_eq_some hfind)
      have hkey : found.key = key := by simpa using List.find?_some hfind
      rw [← hkey]
      exact scan_last_of_mem hnodup hmem
  | none =>
      have hnot : key ∉ observed.map Seen.key := by
        intro hmem
        obtain ⟨one, hone, hkey⟩ := List.mem_map.mp hmem
        have hno := List.find?_eq_none.mp hfind one (List.mem_reverse.mpr hone)
        simp [hkey] at hno
      exact (scan_last_of_not_mem hnot).trans (hkept key)

section Things

variable [DecidableEq Thing]

def History.lastOfThing (history : History Thing Key Val) (thing : Thing) :
    Option (Seen Thing Key Val) :=
  history.find? fun earlier => earlier.thing = thing

/-- A key is listed once, and a thing keeps its key for as long as it is there. -/
structure History.Handed (history : History Thing Key Val)
    (observed : List (Seen Thing Key Val)) : Prop where
  distinct : (observed.map Seen.key).Nodup
  holder : ∀ one ∈ observed, history.lastOfThing one.thing ≠ none →
    history.lastOfKey one.key = history.lastOfThing one.thing

/-- The thing was seen before, and now fires against that. -/
def History.Fires (fires : Val → Val → Prop) (history : History Thing Key Val)
    (one : Seen Thing Key Val) : Prop :=
  ∃ earlier, history.lastOfThing one.thing = some earlier ∧ fires earlier.val one.val

/-- What is seen under a key that another thing held last does not fire. -/
def History.Quiet (fires : Val → Val → Prop) (history : History Thing Key Val)
    (one : Seen Thing Key Val) : Prop :=
  ∀ earlier, history.lastOfKey one.key = some earlier → earlier.thing ≠ one.thing →
    ¬ fires earlier.val one.val

theorem History.Handed.lastOfKey (hhanded : history.Handed observed) (hone : one ∈ observed)
    {earlier : Seen Thing Key Val} (hthing : history.lastOfThing one.thing = some earlier) :
    history.lastOfKey one.key = some earlier := by
  rw [hhanded.holder one hone (by simp [hthing]), hthing]

/-- What a key reports is what its thing does, if and only if a key that was handed on is
quiet. -/
theorem History.Kept.mem_scan_iff (hkept : history.Kept last)
    (hhanded : history.Handed observed) (hone : one ∈ observed) :
    (one.key ∈ (LastSeen.scan fires observed last).1 ↔ history.Fires fires one) ↔
      history.Quiet fires one := by
  rw [mem_scan hhanded.distinct hone, hkept]
  cases hlast : history.lastOfKey one.key with
  | none =>
      have hnot : ¬ history.Fires fires one := by
        rintro ⟨earlier, hthing, -⟩
        rw [hhanded.lastOfKey hone hthing] at hlast
        contradiction
      refine iff_of_true (iff_of_false (by simp) hnot) ?_
      intro earlier hearlier
      rw [hlast] at hearlier
      contradiction
  | some earlier =>
      by_cases hthing : earlier.thing = one.thing
      · -- the thing held its key when it was last seen, so that this is its own record
        have hown : history.lastOfThing one.thing = some earlier := by
          cases hfind : history.lastOfThing one.thing with
          | none =>
              have hno := List.find?_eq_none.mp hfind earlier
                (List.mem_of_find?_eq_some hlast)
              simp [hthing] at hno
          | some found => rw [← hhanded.lastOfKey hone hfind, hlast]
        refine iff_of_true ?_ ?_
        · simp [Fires, hown]
        · intro found hfound hne
          rw [hlast] at hfound
          obtain rfl := Option.some.inj hfound
          exact absurd hthing hne
      · have hnot : ¬ history.Fires fires one := by
          rintro ⟨found, hfound, -⟩
          have hsame := (hhanded.lastOfKey hone hfound).symm.trans hlast
          obtain rfl := Option.some.inj hsame
          exact hthing (by simpa using List.find?_some hfound)
        rw [iff_false_right hnot]
        simp [Quiet, hlast, hthing]

end Things

end LastSeen
