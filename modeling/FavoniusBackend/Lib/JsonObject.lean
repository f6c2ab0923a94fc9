import FavoniusBackend.Lib.Dict
import FavoniusBackend.Lib.PyJson

/-!
# Decoded JSON objects as dictionaries

The members of an object under the methods of `dict`; a member that is missing reads as `None`.
-/

namespace FavoniusBackend.Lib

open PyJson

abbrev JsonObject := List (PyStr × Json)

namespace JsonObject

def get (d : JsonObject) (key : String) : Json := (Dict.lookup d (py key)).getD .null

/-- `d[key] = value`. -/
def set (d : JsonObject) (key : String) (value : Json) : JsonObject := Dict.assign d (py key) value

def update (d other : JsonObject) : JsonObject := other.foldl (fun d p => Dict.assign d p.1 p.2) d

theorem get_set (d : JsonObject) (key key' : String) (value : Json) :
    (d.set key value).get key' = if py key' = py key then value else d.get key' := by
  rw [get, set, Dict.lookup_assign]
  split
  · rfl
  · rfl

theorem lookup_update {other : JsonObject} (hnodup : (other.map Prod.fst).Nodup) (d : JsonObject) (k : PyStr) :
    Dict.lookup (d.update other) k = (Dict.lookup other k).or (Dict.lookup d k) := by
  induction other generalizing d with
  | nil => rfl
  | cons p rest ih =>
    rw [List.map_cons, List.nodup_cons] at hnodup
    show Dict.lookup (update (Dict.assign d p.1 p.2) rest) k = _
    rw [ih hnodup.2, Dict.lookup_assign, Dict.lookup]
    by_cases hk : p.1 = k
    · have hrest : Dict.lookup rest k = none := by
        rw [← Option.not_isSome_iff_eq_none, Dict.lookup_isSome_iff, ← hk]
        exact hnodup.1
      rw [if_pos hk, if_pos hk.symm, hrest]
      rfl
    · rw [if_neg hk, if_neg (Ne.symm hk)]

theorem lookup_eq_none_of_keys {d : JsonObject} {keys : List PyStr} {k : PyStr} (h : d.map Prod.fst ⊆ keys)
    (hk : k ∉ keys) : Dict.lookup d k = none := by
  rw [← Option.not_isSome_iff_eq_none, Dict.lookup_isSome_iff]
  exact fun hmem => hk (h hmem)

end JsonObject

end FavoniusBackend.Lib
