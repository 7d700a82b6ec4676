import Mathlib.Data.List.Basic

/-!
# JSON documents

Documents and how a typed record is read out of one: a field that is missing or `null` leaves the
zero value, a field of another kind than expected is an error. Fields are in the order of the
document; of several under one name the first counts.
-/

inductive Json
  | null
  | bool (b : Bool)
  | num (n : Int)
  | str (s : String)
  | arr (items : List Json)
  | obj (fields : List (String × Json))

namespace Json

/-- The field of an object, `null` if there is none. -/
def field (key : String) : Json → Json
  | obj fields => (fields.lookup key).getD null
  | _ => null

/-- A field, printed only when there is something to print. -/
def optional (absent : Bool) (key : String) (value : Json) : List (String × Json) :=
  if absent then [] else [(key, value)]

def mismatch : String := "json: cannot unmarshal into the expected type"

def asString : Json → Except String String
  | null => pure ""
  | str s => pure s
  | _ => throw mismatch

def asBool : Json → Except String (Option Bool)
  | null => pure none
  | bool b => pure (some b)
  | _ => throw mismatch

def asList : Json → Except String (List Json)
  | null => pure []
  | arr items => pure items
  | _ => throw mismatch

def asMap : Json → Except String (List (String × String))
  | null => pure []
  | obj fields => fields.mapM fun f => do pure (f.1, ← f.2.asString)
  | _ => throw mismatch

def ofMap (m : List (String × String)) : Json := obj (m.map fun f => (f.1, str f.2))

@[simp] theorem asMap_ofMap (m : List (String × String)) : (ofMap m).asMap = .ok m := by
  have hmap : (m.map fun f => (f.1, str f.2)).mapM
      (fun f => do pure (f.1, ← f.2.asString)) = (.ok m : Except String _) := by
    induction m with
    | nil => rfl
    | cons f m ih => rw [List.map_cons, List.mapM_cons, ih]; rfl
  exact hmap

end Json
