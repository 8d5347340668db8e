import Mathlib.Tactic
import Playspace.Lib.Machine
import Playspace.Python.CountVertices

/-!
# What the script counts

The search runs over dictionaries and the question is about the scene tree, so
the tree gets a search of its own, `coordinateNodes`, and one mutual induction
says that the two go together, exceptions included (`getMeshes_node` and the
three beside it). It rests on what the `Supervisor` promises of a tree: the
fields of a node have different names, and no type is without a name (`Named`).
A dictionary then has the fields in their order behind the type, and what a
field's name was overwritten with is no question.
-/

namespace Playspace.CountVertices

open Playspace.Lib

/-! ## The tree -/

def Field.name : Field → String
  | .field name _ => name

def Field.content : Field → Content
  | .field _ content => content

/-- The fields that are there. -/
def present (fields : List (Option Field)) : List Field :=
  fields.filterMap id

mutual

/-- The fields of every `Coordinate` node, in the order of the search. -/
def coordinateNodes : Option Node → List (List (Option Field))
  | none => []
  | some (.node typeName fields) =>
      (if typeName = "Coordinate" then [fields] else []) ++ coordinateFields fields

def coordinateFields : List (Option Field) → List (List (Option Field))
  | [] => []
  | none :: rest => coordinateFields rest
  | some (.field _ content) :: rest => coordinateContent content ++ coordinateFields rest

def coordinateContent : Content → List (List (Option Field))
  | .sfNode n => coordinateNodes n
  | .mfNode ns => coordinateList ns
  | .single .. | .multiple .. | .unknown .. => []

def coordinateList : List (Option Node) → List (List (Option Field))
  | [] => []
  | n :: rest => coordinateNodes n ++ coordinateList rest

end

mutual

/-- What the `Supervisor` promises of the names in a tree. -/
def Named : Option Node → Prop
  | none => True
  | some (.node typeName fields) =>
      typeName ≠ "" ∧ ("__type" :: (present fields).map Field.name).Nodup ∧
        NamedFields fields

def NamedFields : List (Option Field) → Prop
  | [] => True
  | none :: rest => NamedFields rest
  | some (.field _ content) :: rest => NamedContent content ∧ NamedFields rest

def NamedContent : Content → Prop
  | .sfNode n => Named n
  | .mfNode ns => NamedList ns
  | .single .. | .multiple .. | .unknown .. => True

def NamedList : List (Option Node) → Prop
  | [] => True
  | n :: rest => Named n ∧ NamedList rest

end

/-- The content of the field `point`. -/
def pointOf (fields : List (Option Field)) : Option Content :=
  ((present fields).find? fun f => f.name = "point").map Field.content

variable {exportMf : Bool} {fields : List (Option Field)} {typeName : String}

/-! ## The dictionary of a node -/

def Field.entry (exportMf : Bool) (f : Field) : Entry :=
  .pair f.content.typeName (buildDictField exportMf f.content)

theorem buildDictFields_eq (localFields : Dict) (fields : List (Option Field)) :
    buildDictFields exportMf localFields fields =
      (present fields).foldl
        (fun d f => OrderedDict.set d f.name (f.entry exportMf)) localFields := by
  induction fields generalizing localFields with
  | nil => rfl
  | cons f rest ih =>
      match f with
      | none => exact ih localFields
      | some (.field name content) => exact ih _

/-- Different names stand in the dictionary as they came. -/
theorem buildDictNode_eq
    (h : ("__type" :: (present fields).map Field.name).Nodup) :
    buildDictNode exportMf (some (.node typeName fields)) =
      ("__type", .str typeName) ::
        (present fields).map fun f => (f.name, f.entry exportMf) := by
  rw [List.nodup_cons] at h
  rw [buildDictNode, buildDictFields_eq]
  refine OrderedDict.foldl_set_of_nodup Field.name (Field.entry exportMf) h.2 ?_
  intro f hf hmem
  rw [List.map_singleton, List.mem_singleton] at hmem
  have hname : f.name = "__type" := hmem
  exact h.1 (hname ▸ List.mem_map_of_mem hf)

theorem get?_entries (name : String) (fs : List Field) :
    OrderedDict.get? (fs.map fun f => (f.name, f.entry exportMf)) name =
      (fs.find? fun f => f.name = name).map (Field.entry exportMf) := by
  induction fs with
  | nil => rfl
  | cons f fs ih =>
      rw [List.map_cons]
      by_cases hname : f.name = name
      · rw [List.find?_cons_of_pos (by simpa using hname), ← hname,
          OrderedDict.get?_cons_self, Option.map_some]
      · rw [List.find?_cons_of_neg (by simpa using hname),
          OrderedDict.get?_cons_of_ne hname, ih]

/-! ## The search -/

/-- What the search takes from a `Coordinate` node. -/
def coordOf (exportMf : Bool) (fields : List (Option Field)) : Except PyError Item :=
  match pointOf fields with
  | none => .error .keyError
  | some point => .ok (buildDictField exportMf point)

theorem ownCoord_eq (h : ("__type" :: (present fields).map Field.name).Nodup) :
    ownCoord (buildDictNode exportMf (some (.node typeName fields))) =
      (if typeName = "Coordinate" then [fields] else []).mapM (coordOf exportMf) := by
  have hpoint : ("__type" : String) ≠ "point" := by decide
  rw [buildDictNode_eq h]
  unfold ownCoord
  rw [OrderedDict.get?_cons_self]
  simp only []
  split
  · rw [OrderedDict.get?_cons_of_ne hpoint, get?_entries, List.mapM_cons, List.mapM_nil,
      coordOf, pointOf]
    cases (present fields).find? fun f => f.name = "point" with
    | none => rfl
    | some f => rfl
  · rfl

theorem single_ne (t : ValueType) : "SF" ++ t.name ≠ "SFNode" ∧ "SF" ++ t.name ≠ "MFNode" := by
  cases t <;> decide

theorem multiple_ne (t : ValueType) :
    "MF" ++ t.name ≠ "SFNode" ∧ "MF" ++ t.name ≠ "MFNode" := by
  cases t <;> decide

theorem unknown_ne (t : UnknownType) : t.name ≠ "SFNode" ∧ t.name ≠ "MFNode" := by
  have hknown : "SFNode" ∈ knownTypes ∧ "MFNode" ∈ knownTypes := by decide
  exact ⟨fun h => t.unknown (h ▸ hknown.1), fun h => t.unknown (h ▸ hknown.2)⟩

theorem getMeshes_other {value : Item} (h : typeName ≠ "SFNode" ∧ typeName ≠ "MFNode") :
    getMeshes (.pair typeName value) = .ok [] := by
  rw [getMeshes.eq_def]
  simp only []
  rw [if_neg h.1, if_neg h.2]

mutual

/-- The `SFNode` part of the search does to the dictionary of a node what
`coordinateNodes` does to the node. -/
theorem getMeshes_node {n : Option Node} (h : Named n) :
    (do
      let coords ← ownCoord (buildDictNode exportMf n)
      let more ← getMeshesValues (buildDictNode exportMf n)
      return coords ++ more) = (coordinateNodes n).mapM (coordOf exportMf) := by
  match n with
  | none => rfl
  | some (.node typeName fields) =>
      obtain ⟨htype, hnames, hfields⟩ := h
      have hvalues : getMeshesValues (buildDictNode exportMf (some (.node typeName fields))) =
          (coordinateFields fields).mapM (coordOf exportMf) := by
        rw [buildDictNode_eq hnames, getMeshesValues, getMeshes, if_neg htype,
          getMeshes_fields hfields]
        cases (coordinateFields fields).mapM (coordOf exportMf) with
        | error e => rfl
        | ok coords => rfl
      rw [ownCoord_eq hnames, hvalues, coordinateNodes, List.mapM_append]

theorem getMeshes_fields {fields : List (Option Field)} (h : NamedFields fields) :
    getMeshesValues ((present fields).map fun f => (f.name, f.entry exportMf)) =
      (coordinateFields fields).mapM (coordOf exportMf) := by
  match fields with
  | [] => rfl
  | none :: rest => exact @getMeshes_fields rest h
  | some (.field name content) :: rest =>
      have hpresent : present (some (.field name content) :: rest) =
          .field name content :: present rest := rfl
      have hcontent : getMeshes ((Field.field name content).entry exportMf) =
          (coordinateContent content).mapM (coordOf exportMf) :=
        @getMeshes_content content h.1
      rw [hpresent, List.map_cons, getMeshesValues, getMeshes_fields h.2, coordinateFields,
        List.mapM_append, hcontent]

theorem getMeshes_content {content : Content} (h : NamedContent content) :
    getMeshes (.pair content.typeName (buildDictField exportMf content)) =
      (coordinateContent content).mapM (coordOf exportMf) := by
  match content with
  | .single t d => exact getMeshes_other (single_ne t)
  | .multiple t ds => exact getMeshes_other (multiple_ne t)
  | .unknown t => exact getMeshes_other (unknown_ne t)
  | .sfNode n =>
      rw [Content.typeName, buildDictField, getMeshes, if_pos rfl, coordinateContent]
      exact getMeshes_node h
  | .mfNode ns =>
      rw [Content.typeName, buildDictField, getMeshes, if_neg (by decide), if_pos rfl,
        coordinateContent]
      exact getMeshes_list h

theorem getMeshes_list {ns : List (Option Node)} (h : NamedList ns) :
    getMeshesNodes (buildDictNodes exportMf ns) =
      (coordinateList ns).mapM (coordOf exportMf) := by
  match ns with
  | [] => rfl
  | n :: rest =>
      rw [buildDictNodes, getMeshesNodes, coordinateList, List.mapM_append,
        ← getMeshes_node h.1, getMeshes_list h.2]
      simp only [bind_assoc, pure_bind]

end

/-! ## The count -/

/-- The points of a `Coordinate` node. -/
def vertexCount (fields : List (Option Field)) : Nat :=
  match pointOf fields with
  | some (.multiple _ ds) => ds.length
  | _ => 0

/-- The `point` of a `Coordinate` node, if it shows one, is an `MFVec3f`. -/
def PointsTyped (robotNode : Option Node) : Prop :=
  ∀ fields ∈ coordinateNodes robotNode, ∀ content, pointOf fields = some content →
    ∃ ds, content = .multiple .vec3f ds

theorem countVertices_eq (meshes : List Item) (numVert : Nat) :
    meshes.foldlM (fun numVert m => do
      let n ← m.len
      return numVert + n) numVert =
      (meshes.mapM Item.len).map fun sizes => numVert + sizes.sum := by
  induction meshes generalizing numVert with
  | nil => rfl
  | cons m meshes ih =>
      rw [List.foldlM_cons, List.mapM_cons]
      cases m.len with
      | error e => rfl
      | ok n =>
          show (meshes.foldlM _ (numVert + n)) = _
          rw [ih]
          cases meshes.mapM Item.len with
          | error e => rfl
          | ok sizes =>
              show Except.ok (numVert + n + sizes.sum) =
                Except.ok (numVert + (n :: sizes).sum)
              rw [List.sum_cons, Nat.add_assoc]

/-- What the dictionary of a `Coordinate` node has for its points. -/
def pointItem (exportMf : Bool) (fields : List (Option Field)) : Item :=
  match pointOf fields with
  | some content => buildDictField exportMf content
  | none => .none

theorem coordOf_eq (exportMf : Bool) (fields : List (Option Field)) :
    coordOf exportMf fields =
      if pointOf fields = none then .error .keyError else .ok (pointItem exportMf fields) := by
  rw [coordOf, pointItem]
  cases pointOf fields with
  | none => rfl
  | some content => rfl

/-- The search finds what stands under `point`, or stops at the first
`Coordinate` node that has nothing there. -/
theorem coordOf_mapM (exportMf : Bool) (nodes : List (List (Option Field))) :
    nodes.mapM (coordOf exportMf) =
      if ∃ fields ∈ nodes, pointOf fields = none then .error .keyError
      else .ok (nodes.map (pointItem exportMf)) := by
  split
  · next hmissing =>
      obtain ⟨fields, hfields, hnone⟩ := hmissing
      refine mapM_error_of_mem (fun fields' _ => ?_) hfields ?_
      · rw [coordOf_eq]
        split
        · exact Or.inl rfl
        · exact Or.inr ⟨_, rfl⟩
      · rw [coordOf_eq, if_pos hnone]
  · next hall =>
      refine mapM_eq_ok fun fields hfields => ?_
      rw [coordOf_eq, if_neg fun hnone => hall ⟨fields, hfields, hnone⟩]

/-- With the multiple values in the dictionaries, what is found has the length of
the points; without them it has none. -/
theorem pointItem_len {robotNode : Option Node} (h : PointsTyped robotNode)
    {fields : List (Option Field)} (hfields : fields ∈ coordinateNodes robotNode)
    (hpoint : pointOf fields ≠ none) :
    (pointItem exportMf fields).len =
      if exportMf then .ok (vertexCount fields) else .error .typeError := by
  obtain ⟨content, hcontent⟩ := Option.ne_none_iff_exists'.mp hpoint
  obtain ⟨ds, rfl⟩ := h fields hfields content hcontent
  rw [pointItem, vertexCount, hcontent]
  cases exportMf with
  | true => rfl
  | false => rfl

/-- The sum over what was found. -/
theorem countVertices_nodes {robotNode : Option Node} (h : PointsTyped robotNode)
    (hpoint : ∀ fields ∈ coordinateNodes robotNode, pointOf fields ≠ none) :
    countVertices ((coordinateNodes robotNode).map (pointItem exportMf)) =
      if exportMf = false ∧ coordinateNodes robotNode ≠ [] then .error .typeError
      else .ok ((coordinateNodes robotNode).map vertexCount).sum := by
  have hlen : ∀ fields ∈ coordinateNodes robotNode, (Item.len ∘ pointItem exportMf) fields =
      if exportMf then .ok (vertexCount fields) else .error .typeError :=
    fun fields hfields => pointItem_len h hfields (hpoint fields hfields)
  rw [countVertices, countVertices_eq, List.mapM_map]
  cases exportMf with
  | true =>
      rw [mapM_eq_ok hlen, if_neg fun hfalse => Bool.noConfusion hfalse.1]
      show Except.ok (0 + _) = _
      rw [Nat.zero_add]
  | false =>
      cases hnodes : coordinateNodes robotNode with
      | nil => rfl
      | cons fields rest =>
          rw [hnodes] at hlen
          rw [if_pos ⟨rfl, List.cons_ne_nil fields rest⟩,
            mapM_error_of_mem (fun fields' hfields' => Or.inl (hlen fields' hfields'))
              List.mem_cons_self (hlen fields List.mem_cons_self)]
          rfl

theorem exportsMf_eq_false_iff {env : Environ} :
    env.exportsMf = false ↔ env.exportMf = some "" := by
  rw [Environ.exportsMf]
  cases env.exportMf with
  | none => exact iff_of_false nofun nofun
  | some text => simp

/-- With both names set, the script prints the number of points of all
`Coordinate` nodes of the robot, wherever they are in its tree; unless a
`Coordinate` node shows no `point`, or there is one and `EXPORT_MF` is set to
nothing. Every other text in `EXPORT_MF`, `False` and `0` among them, counts as
true, and of a robot that was not found there are 0. -/
theorem main_reports {env : Environ} {modelName robotPath : String} {robotNode : Option Node}
    (hname : env.robotName = some modelName) (hpath : env.robotPath = some robotPath)
    (hnamed : Named robotNode) (hpoints : PointsTyped robotNode) :
    main env robotNode =
      if ∃ fields ∈ coordinateNodes robotNode, pointOf fields = none then .error .keyError
      else if env.exportMf = some "" ∧ coordinateNodes robotNode ≠ [] then .error .typeError
      else .ok (report ((coordinateNodes robotNode).map vertexCount).sum modelName) := by
  have hsearch : getMeshes (.pair "SFNode" (.dict (buildDictNode env.exportsMf robotNode))) =
      (coordinateNodes robotNode).mapM (coordOf env.exportsMf) := by
    rw [getMeshes, if_pos rfl]
    exact getMeshes_node hnamed
  rw [main, hname, hpath]
  simp only []
  rw [hsearch, coordOf_mapM]
  split
  · rfl
  · next hall =>
      have hcount := @countVertices_nodes env.exportsMf _ hpoints
        fun fields hfields hnone => hall ⟨fields, hfields, hnone⟩
      simp only [exportsMf_eq_false_iff] at hcount
      show (do
        let numVert ← countVertices ((coordinateNodes robotNode).map (pointItem env.exportsMf))
        return report numVert modelName) = _
      rw [hcount]
      split
      · rfl
      · rfl

/-- A robot with one triangle and one field that is `None`. -/
def sampleRobot : Option Node :=
  some (.node "Robot" [
    some (.field "name" (.single .string (.string "red player 1"))), none,
    some (.field "children" (.mfNode [some (.node "IndexedFaceSet" [
      some (.field "coord" (.sfNode (some (.node "Coordinate" [
        some (.field "point" (.multiple .vec3f
          [.vector [0, 0, 0], .vector [1, 0, 0], .vector [0, 1, 0]]))]))))]), none]))])

theorem named_sampleRobot : Named sampleRobot := by
  simp [sampleRobot, Named, NamedFields, NamedContent, NamedList, present, Field.name]

theorem main_sampleRobot :
    main ⟨some "nao", some "/robots/nao", some "False"⟩ sampleRobot =
      .ok "There are 3 in the IndexFaceSets of the nao" := by
  have hpoints : PointsTyped sampleRobot := by
    intro fields hfields content hcontent
    obtain rfl := List.mem_singleton.mp hfields
    cases hcontent
    exact ⟨_, rfl⟩
  rw [main_reports rfl rfl named_sampleRobot hpoints]
  rfl

/-! ## Reading a tree back -/

def ValueType.all : List ValueType :=
  [.bool, .int32, .float, .vec2f, .vec3f, .rotation, .color, .string]

/-- The value type with this name, `SF` or `MF` before it. -/
def typeNamed (form typeName : String) : Option ValueType :=
  ValueType.all.find? fun t => form ++ t.name = typeName

theorem typeNamed_single (t : ValueType) : typeNamed "SF" ("SF" ++ t.name) = some t := by
  cases t <;> decide +kernel

theorem typeNamed_multiple (t : ValueType) : typeNamed "MF" ("MF" ++ t.name) = some t := by
  cases t <;> decide +kernel

mutual

/-- The tree in a dictionary. `None` stands for what is no dictionary of a tree. -/
def readNode : Dict → Option (Option Node)
  | [] => some none
  | (key, .str typeName) :: rest =>
      if key = "__type" then (readFields rest).map fun fields => some (.node typeName fields)
      else none
  | (_, .pair ..) :: _ => none

def readFields : List (String × Entry) → Option (List (Option Field))
  | [] => some []
  | (name, .pair typeName value) :: rest => do
      let content ← readContent typeName value
      let fields ← readFields rest
      return some (.field name content) :: fields
  | (_, .str _) :: _ => none

def readContent (typeName : String) : Item → Option Content
  | .none =>
      if h : typeName ∉ knownTypes then some (.unknown ⟨typeName, h⟩) else none
  | .datum d => (typeNamed "SF" typeName).map fun t => .single t d
  | .data ds => (typeNamed "MF" typeName).map fun t => .multiple t ds
  | .dict d => (readNode d).map .sfNode
  | .dicts ds => (readList ds).map .mfNode

def readList : List (List (String × Entry)) → Option (List (Option Node))
  | [] => some []
  | d :: rest => do
      let n ← readNode d
      let ns ← readList rest
      return n :: ns

end

mutual

/-- A tree without the fields that are `None`. -/
def shown : Option Node → Option Node
  | none => none
  | some (.node typeName fields) => some (.node typeName (shownFields fields))

def shownFields : List (Option Field) → List (Option Field)
  | [] => []
  | none :: rest => shownFields rest
  | some (.field name content) :: rest =>
      some (.field name (shownContent content)) :: shownFields rest

def shownContent : Content → Content
  | .sfNode n => .sfNode (shown n)
  | .mfNode ns => .mfNode (shownList ns)
  | .single t d => .single t d
  | .multiple t ds => .multiple t ds
  | .unknown t => .unknown t

def shownList : List (Option Node) → List (Option Node)
  | [] => []
  | n :: rest => shown n :: shownList rest

end

mutual

/-- Where the multiple values are exported, the dictionaries keep the whole tree,
but for the fields that are `None`. -/
theorem readNode_buildDictNode {n : Option Node} (h : Named n) :
    readNode (buildDictNode true n) = some (shown n) := by
  match n with
  | none => rfl
  | some (.node typeName fields) =>
      obtain ⟨-, hnames, hfields⟩ := h
      rw [buildDictNode_eq hnames, readNode, if_pos rfl, readFields_present hfields, shown]
      rfl

theorem readFields_present {fields : List (Option Field)} (h : NamedFields fields) :
    readFields ((present fields).map fun f => (f.name, f.entry true)) =
      some (shownFields fields) := by
  match fields with
  | [] => rfl
  | none :: rest => exact @readFields_present rest h
  | some (.field name content) :: rest =>
      have hpresent : present (some (.field name content) :: rest) =
          .field name content :: present rest := rfl
      have hentry : (Field.field name content).entry true =
          .pair content.typeName (buildDictField true content) := rfl
      rw [hpresent, List.map_cons, hentry, readFields,
        @readContent_buildDictField content h.1, readFields_present h.2, shownFields]
      rfl

theorem readContent_buildDictField {content : Content} (h : NamedContent content) :
    readContent content.typeName (buildDictField true content) =
      some (shownContent content) := by
  match content with
  | .single t d =>
      rw [Content.typeName, buildDictField, readContent, typeNamed_single, shownContent]
      rfl
  | .multiple t ds =>
      rw [Content.typeName, buildDictField, if_pos rfl, readContent, typeNamed_multiple,
        shownContent]
      rfl
  | .unknown t =>
      rw [Content.typeName, buildDictField, readContent, dif_pos t.unknown, shownContent]
  | .sfNode n =>
      rw [Content.typeName, buildDictField, readContent, @readNode_buildDictNode n h,
        shownContent]
      rfl
  | .mfNode ns =>
      rw [Content.typeName, buildDictField, readContent, @readList_buildDictNodes ns h,
        shownContent]
      rfl

theorem readList_buildDictNodes {ns : List (Option Node)} (h : NamedList ns) :
    readList (buildDictNodes true ns) = some (shownList ns) := by
  match ns with
  | [] => rfl
  | n :: rest =>
      rw [buildDictNodes, readList, @readNode_buildDictNode n h.1,
        @readList_buildDictNodes rest h.2, shownList]
      rfl

end

mutual

/-- A field that is `None` leaves nothing behind. -/
theorem buildDictNode_shown (n : Option Node) :
    buildDictNode exportMf (shown n) = buildDictNode exportMf n := by
  match n with
  | none => rfl
  | some (.node typeName fields) =>
      rw [shown, buildDictNode, buildDictNode, buildDictFields_shown]

theorem buildDictFields_shown (localFields : Dict) (fields : List (Option Field)) :
    buildDictFields exportMf localFields (shownFields fields) =
      buildDictFields exportMf localFields fields := by
  match fields with
  | [] => rfl
  | none :: rest => exact buildDictFields_shown localFields rest
  | some (.field name content) :: rest =>
      have hname : (shownContent content).typeName = content.typeName := by
        cases content <;> rfl
      rw [shownFields, buildDictFields, buildDictFields, hname, buildDictField_shown content,
        buildDictFields_shown _ rest]

theorem buildDictField_shown (content : Content) :
    buildDictField exportMf (shownContent content) = buildDictField exportMf content := by
  match content with
  | .single t d => rfl
  | .multiple t ds => rfl
  | .unknown t => rfl
  | .sfNode n => rw [shownContent, buildDictField, buildDictField, buildDictNode_shown n]
  | .mfNode ns => rw [shownContent, buildDictField, buildDictField, buildDictNodes_shown ns]

theorem buildDictNodes_shown (ns : List (Option Node)) :
    buildDictNodes exportMf (shownList ns) = buildDictNodes exportMf ns := by
  match ns with
  | [] => rfl
  | n :: rest =>
      rw [shownList, buildDictNodes, buildDictNodes, buildDictNode_shown n,
        buildDictNodes_shown rest]

end

/-- Two trees have the same dictionary exactly when they differ in nothing but
fields that are `None`. -/
theorem buildDictNode_eq_iff {n n' : Option Node} (h : Named n) (h' : Named n') :
    buildDictNode true n = buildDictNode true n' ↔ shown n = shown n' := by
  constructor
  · intro heq
    have hread := readNode_buildDictNode h
    rw [heq, readNode_buildDictNode h'] at hread
    exact (Option.some.inj hread).symm
  · intro heq
    rw [← buildDictNode_shown n, heq, buildDictNode_shown]

theorem buildDictNode_sampleRobot :
    buildDictNode true sampleRobot = buildDictNode true (shown sampleRobot) := by
  have hnamed : Named (shown sampleRobot) := by
    simp [sampleRobot, shown, shownFields, shownContent, shownList, Named, NamedFields,
      NamedContent, NamedList, present, Field.name]
  exact (buildDictNode_eq_iff named_sampleRobot hnamed).mpr rfl

/-! ## The writer -/

theorem coordIndex_eq (faces : List (List Nat)) :
    coordIndex faces = faces.flatMap fun face => face.map Int.ofNat ++ [-1] := by
  have hfold : ∀ index : List Int,
      faces.foldl (fun index face => index ++ face.map Int.ofNat ++ [-1]) index =
        index ++ faces.flatMap fun face => face.map Int.ofNat ++ [-1] := by
    induction faces with
    | nil => exact fun index => (List.append_nil index).symm
    | cons face faces ih =>
        intro index
        rw [List.foldl_cons, ih, List.flatMap_cons, List.append_assoc, List.append_assoc,
          List.append_assoc]
  exact hfold []

/-- No vertex number is the mark, so that the marks are the ends of the faces. -/
theorem splitOn_coordIndex (faces : List (List Nat)) :
    (coordIndex faces).splitOn (-1) = faces.map (List.map Int.ofNat) ++ [[]] := by
  rw [coordIndex_eq]
  induction faces with
  | nil => rfl
  | cons face faces ih =>
      have hmark : (-1 : Int) ∉ face.map Int.ofNat := by
        intro hmem
        obtain ⟨vertex, -, hvertex⟩ := List.mem_map.mp hmem
        cases hvertex
      rw [List.flatMap_cons, List.append_assoc, List.singleton_append,
        List.splitOn_append_cons_self_of_not_mem hmark, ih, List.map_cons, List.cons_append]

theorem coordIndex_injective : Function.Injective coordIndex := by
  intro faces faces' h
  have hfaces := congrArg (List.splitOn (-1)) h
  rw [splitOn_coordIndex, splitOn_coordIndex, List.append_cancel_right_eq] at hfaces
  exact (List.map_injective_iff.mpr
    (List.map_injective_iff.mpr fun _ _ => Int.ofNat.inj)) hfaces

/-- A mesh can be read back from the face set it is written as, faces and
vertices, and the search finds just its vertices there. -/
theorem mesh_written : Function.Injective meshToIndexedFaceSet ∧
    ∀ mesh, getMeshes (meshToIndexedFaceSet mesh) =
        .ok [.data (mesh.vertices.map Datum.vector)] ∧
      (getMeshes (meshToIndexedFaceSet mesh) >>= countVertices) =
        .ok mesh.vertices.length := by
  refine ⟨?_, fun mesh => ?_⟩
  · rintro ⟨vertices, faces⟩ ⟨vertices', faces'⟩ h
    simp only [meshToIndexedFaceSet, Entry.pair.injEq, Item.dict.injEq, Item.data.injEq,
      List.cons.injEq, Prod.mk.injEq, true_and, and_true] at h
    obtain ⟨hvertices, hindex⟩ := h
    have hint : Function.Injective Datum.int := fun _ _ => Datum.int.inj
    have hvector : Function.Injective Datum.vector := fun _ _ => Datum.vector.inj
    rw [List.map_injective_iff.mpr hvector hvertices,
      coordIndex_injective (List.map_injective_iff.mpr hint hindex)]
  · have hsearch : getMeshes (meshToIndexedFaceSet mesh) =
        .ok [.data (mesh.vertices.map Datum.vector)] := rfl
    refine ⟨hsearch, ?_⟩
    rw [hsearch]
    show Except.ok (0 + (mesh.vertices.map Datum.vector).length) = _
    rw [Nat.zero_add, List.length_map]

end Playspace.CountVertices
