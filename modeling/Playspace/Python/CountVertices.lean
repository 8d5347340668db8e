import Mathlib.Data.Rat.Defs
import Playspace.Lib.OrderedDict

/-!
# `count_vertices.py`

The script turns the scene tree of a robot into dictionaries and counts the
vertices of the `Coordinate` nodes in them. What the calls of the `Supervisor`
return is a tree of nodes here, where a field has its name and its content, and
the type name goes with the kind of content; the two `None`s that a call can
return, for a field and for a node, are in it. A pair `(type_name, value)` of
the script is an `Entry`, as is the type of a node, which is only a string, and
all of the script's operations are defined on whatever may stand in such a pair.
An exception is the error of an `Except`. Floating point numbers, which are only
passed on, are exact.
-/

namespace Playspace.CountVertices

open Playspace.Lib

/-! ## The scene tree -/

/-- One value of a field that is not a node. -/
inductive Datum where
  | bool (b : Bool)
  | int (n : Int)
  | float (x : ℚ)
  | vector (xs : List ℚ)
  | string (s : String)
deriving DecidableEq

/-- The types that have an `SF` and an `MF` form. -/
inductive ValueType where
  | bool
  | int32
  | float
  | vec2f
  | vec3f
  | rotation
  | color
  | string
deriving DecidableEq

def ValueType.name : ValueType → String
  | .bool => "Bool"
  | .int32 => "Int32"
  | .float => "Float"
  | .vec2f => "Vec2f"
  | .vec3f => "Vec3f"
  | .rotation => "Rotation"
  | .color => "Color"
  | .string => "String"

/-- The type names that `build_dict_field` has a branch for. -/
def knownTypes : List String :=
  ["SFBool", "SFInt32", "SFFloat", "SFVec2f", "SFVec3f", "SFRotation", "SFColor", "SFString",
    "SFNode", "MFNode", "MFBool", "MFInt32", "MFFloat", "MFVec2f", "MFVec3f", "MFColor",
    "MFRotation", "MFString"]

structure UnknownType where
  name : String
  unknown : name ∉ knownTypes

mutual

inductive Node where
  | node (typeName : String) (fields : List (Option Field))

inductive Field where
  | field (name : String) (content : Content)

inductive Content where
  | single (t : ValueType) (d : Datum)
  | multiple (t : ValueType) (ds : List Datum)
  | sfNode (n : Option Node)
  | mfNode (ns : List (Option Node))
  | unknown (t : UnknownType)

end

/-- `getTypeName()` of a field. -/
def Content.typeName : Content → String
  | .single t _ => "SF" ++ t.name
  | .multiple t _ => "MF" ++ t.name
  | .sfNode _ => "SFNode"
  | .mfNode _ => "MFNode"
  | .unknown t => t.name

/-! ## The dictionaries -/

mutual

/-- What a dictionary has under a key. -/
inductive Entry where
  | str (s : String)
  | pair (typeName : String) (value : Item)

/-- The second component of a pair. -/
inductive Item where
  | none
  | datum (d : Datum)
  | data (ds : List Datum)
  | dict (d : List (String × Entry))
  | dicts (ds : List (List (String × Entry)))

end

abbrev Dict := List (String × Entry)

mutual

/-- `build_dict_field`, without the type name. -/
def buildDictField (exportMf : Bool) : Content → Item
  | .single _ d => .datum d
  | .sfNode n => .dict (buildDictNode exportMf n)
  | .mfNode ns => .dicts (buildDictNodes exportMf ns)
  | .multiple _ ds => if exportMf then .data ds else .none
  | .unknown _ => .none

def buildDictNode (exportMf : Bool) : Option Node → Dict
  | none => []
  | some (.node typeName fields) =>
      buildDictFields exportMf [("__type", .str typeName)] fields

/-- The loop over the fields, from what `local_fields` is before it. -/
def buildDictFields (exportMf : Bool) (localFields : Dict) : List (Option Field) → Dict
  | [] => localFields
  | none :: rest => buildDictFields exportMf localFields rest
  | some (.field name content) :: rest =>
      buildDictFields exportMf
        (OrderedDict.set localFields name
          (.pair content.typeName (buildDictField exportMf content))) rest

/-- The loop over the nodes of an `MFNode`. -/
def buildDictNodes (exportMf : Bool) : List (Option Node) → List Dict
  | [] => []
  | n :: rest => buildDictNode exportMf n :: buildDictNodes exportMf rest

end

/-! ## The search -/

inductive PyError where
  | indexError
  | keyError
  | typeError
  | attributeError
  | runtimeError (message : String)
deriving DecidableEq

/-- `len(d)`. -/
def Datum.len : Datum → Except PyError Nat
  | .vector xs => .ok xs.length
  | .string s => .ok s.length
  | .bool _ | .int _ | .float _ => .error .typeError

def Item.len : Item → Except PyError Nat
  | .none => .error .typeError
  | .datum d => d.len
  | .data ds => .ok ds.length
  | .dict d => .ok d.length
  | .dicts ds => .ok ds.length

/-- `v[1]`. -/
def Entry.second : Entry → Except PyError Item
  | .pair _ value => .ok value
  | .str s =>
      match s.toList[1]? with
      | some c => .ok (.datum (.string c.toString))
      | none => .error .indexError

/-- What `get_meshes` takes from a dictionary before it goes on to its values. -/
def ownCoord (d : Dict) : Except PyError (List Item) :=
  match OrderedDict.get? d "__type" with
  | some (.str typeName) =>
      if typeName = "Coordinate" then
        match OrderedDict.get? d "point" with
        | none => .error .keyError
        | some point => do
            let coord ← point.second
            return [coord]
      else .ok []
  | _ => .ok []

mutual

/-- A string has a first character that is no type name, unless it is empty. Of
what is no dictionary `get` is not an attribute; and what is no list of
dictionaries is gone through up to its first element. -/
def getMeshes : Entry → Except PyError (List Item)
  | .str s => if s = "" then .error .indexError else .ok []
  | .pair typeName value =>
      if typeName = "SFNode" then
        match value with
        | .dict d => do
            let coords ← ownCoord d
            let more ← getMeshesValues d
            return coords ++ more
        | _ => .error .attributeError
      else if typeName = "MFNode" then
        match value with
        | .dicts ds => getMeshesNodes ds
        | value => do
            let n ← value.len
            if n = 0 then return [] else .error .attributeError
      else .ok []

def getMeshesValues : List (String × Entry) → Except PyError (List Item)
  | [] => .ok []
  | (_, v) :: rest => do
      let coords ← getMeshes v
      let more ← getMeshesValues rest
      return coords ++ more

/-- `get_meshes(("SFNode", child_node))` for each child. -/
def getMeshesNodes : List (List (String × Entry)) → Except PyError (List Item)
  | [] => .ok []
  | d :: rest => do
      let coords ← ownCoord d
      let below ← getMeshesValues d
      let more ← getMeshesNodes rest
      return coords ++ below ++ more

end

/-! ## The script -/

structure Environ where
  robotName : Option String
  robotPath : Option String
  exportMf : Option String

def missing (variableName : String) : PyError :=
  .runtimeError ("Environment variable " ++ variableName ++ " is missing")

/-- `bool` of a string, where the variable is set. -/
def Environ.exportsMf (env : Environ) : Bool :=
  match env.exportMf with
  | none => true
  | some text => text ≠ ""

def report (numVert : Nat) (modelName : String) : String :=
  "There are " ++ toString numVert ++ " in the IndexFaceSets of the " ++ modelName

/-- The loop over the meshes. -/
def countVertices (meshes : List Item) : Except PyError Nat :=
  meshes.foldlM (fun numVert m => do
    let n ← m.len
    return numVert + n) 0

/-- What the script prints. `robotNode` is the robot that was spawned, and `None`
where `getFromDef` finds none. -/
def main (env : Environ) (robotNode : Option Node) : Except PyError String :=
  match env.robotName, env.robotPath with
  | none, _ => .error (missing "ROBOT_NAME")
  | some _, none => .error (missing "ROBOT_PATH")
  | some modelName, some _ => do
      let robot := buildDictNode env.exportsMf robotNode
      let meshes ← getMeshes (.pair "SFNode" (.dict robot))
      let numVert ← countVertices meshes
      return report numVert modelName

/-! ## The writer of an `IndexedFaceSet` -/

structure Mesh where
  vertices : List (List ℚ)
  faces : List (List Nat)

/-- The loop over the faces, each ended by -1. -/
def coordIndex (faces : List (List Nat)) : List Int :=
  faces.foldl (fun index face => index ++ face.map Int.ofNat ++ [-1]) []

def meshToIndexedFaceSet (mesh : Mesh) : Entry :=
  let coordinates := mesh.vertices.map Datum.vector
  .pair "SFNode" (.dict
    [("__type", .str "IndexedFaceSet"),
      ("coord", .pair "SFNode" (.dict
        [("__type", .str "Coordinate"), ("point", .pair "MFVec3f" (.data coordinates))])),
      ("coordIndex", .pair "MFInt32" (.data ((coordIndex mesh.faces).map Datum.int)))])

end Playspace.CountVertices
