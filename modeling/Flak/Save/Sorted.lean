import Std.Data.ExtTreeMap
import Std.Data.ExtTreeSet
import Flak.Json.Schema

namespace Flak

/-!
# How sorted collections are saved

* `Schema.sortedMap` — an object whose keys are the names of the map's keys. If a key comes up more
  than once, its last value counts.
* `Schema.sortedSet` — an array.

Both are written in order; `ofList_toList` says that nothing is lost on the way.
-/

variable {κ α : Type} [Ord κ] [Std.TransOrd κ] [Std.LawfulEqOrd κ] [BEq κ] [LawfulBEq κ]

/-- A sorted `map` is made again from its entries. -/
theorem map_ofList_toList (map : Std.ExtTreeMap κ α) :
    Std.ExtTreeMap.ofList map.toList compare = map := by
  refine Std.ExtTreeMap.ext_getElem? fun k => ?_
  cases h : map[k]? with
  | some v =>
    exact Std.ExtTreeMap.getElem?_ofList_of_mem Std.ReflCmp.compare_self
      Std.ExtTreeMap.distinct_keys_toList (Std.ExtTreeMap.mem_toList_iff_getElem?_eq_some.2 h)
  | none =>
    refine Std.ExtTreeMap.getElem?_ofList_of_contains_eq_false ?_
    rw [Std.ExtTreeMap.map_fst_toList_eq_keys]
    simpa using h

/-- A sorted `set` is made again from its members. -/
theorem set_ofList_toList (set : Std.ExtTreeSet κ) : Std.ExtTreeSet.ofList set.toList = set := by
  refine Std.ExtTreeSet.ext_mem fun k => ?_
  rw [Std.ExtTreeSet.mem_ofList]
  simp

namespace Schema

/-- A sorted map, saved as an object: a `dictionary` under the `name` of each key. -/
def sortedMap (name : κ → String) (ofName : String → κ) (ofName_name : ∀ k, ofName (name k) = k)
    (value : Schema α) : Schema (Std.ExtTreeMap κ α) :=
  .via (fun map => map.toList.map fun entry => (name entry.1, entry.2))
    (fun entries => some (.ofList (entries.map fun entry => (ofName entry.1, entry.2)) compare))
    (fun map => by simp [Function.comp_def, ofName_name, map_ofList_toList])
    (.dictionary value)

/-- A sorted set, saved as an array with each `member` once. -/
def sortedSet (member : Schema κ) : Schema (Std.ExtTreeSet κ) :=
  .via Std.ExtTreeSet.toList (fun members => some (.ofList members))
    (fun set => by rw [set_ofList_toList]) (.list member)

end Schema

end Flak
