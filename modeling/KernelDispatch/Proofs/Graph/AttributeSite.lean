import KernelDispatch.Proofs.Attribute.Insertion
import KernelDispatch.Proofs.Graph.AttributeValue
import KernelDispatch.Proofs.Json.Record

/-!
# An attribute in a graph file

A graph file with an open place for the value of one attribute reads, whatever complete value stands
there, as the same file but for that attribute, or fails with the value's own fault. So the value
alone decides: where it denotes an attribute, the file reads and the node has it, and where it
denotes none, the file is refused as a whole.
-/

namespace KernelDispatch

open Json (Fault Tree RecordSite Indifferent)

namespace GraphFile

/-! ### One attribute of a node -/

/-- Take one attribute. -/
def takeAttribute (attrs : Attributes) (name : String) (value : Tree) :
    Except Fault Attributes := do
  return attrs.insert name (← readAttribute value)

/-- Attributes are read member by member. -/
theorem readAttributes_eq (tree : Tree) :
    readAttributes tree = tree.foldMembers takeAttribute .empty := rfl

/-- Members that are read into one attribute map are read into every other as the same entries. -/
theorem exists_insertAll {members : List (Option String × Tree)} {attrs attrs' : Attributes}
    (h : Tree.foldMembers takeAttribute attrs (.object members .closed) = .ok attrs') :
    ∃ entries : List (String × AttrValue), entries.map (fun e => some e.1) = members.map (·.1) ∧
      ∀ attrs, Tree.foldMembers takeAttribute attrs (.object members .closed) =
        .ok (attrs.insertAll entries) := by
  induction members generalizing attrs with
  | nil => exact ⟨[], rfl, fun _ => rfl⟩
  | cons m members ih =>
    obtain ⟨key, value⟩ := m
    cases key with
    | none => cases h
    | some key =>
      rw [Json.foldMembers_cons] at h
      obtain ⟨attrs, hvalue, h⟩ := bind_eq_ok_iff.mp h
      obtain ⟨v, hv, -⟩ := bind_eq_ok_iff.mp hvalue
      obtain ⟨entries, hkeys, hentries⟩ := ih h
      refine ⟨(key, v) :: entries, by simp [hkeys], fun attrs => ?_⟩
      rw [Json.foldMembers_cons, takeAttribute, hv]
      exact hentries (attrs.insert key v)

/-- An attribute map that reads with one value in a place reads with every other as that value among
the same entries. -/
theorem exists_readAttributes_append {before after : List (Option String × Tree)} {name : String}
    {filler : Tree} {attrs : Attributes}
    (h : readAttributes (.object (before ++ (some name, filler) :: after) .closed) = .ok attrs) :
    ∃ (front : Attributes) (entries : List (String × AttrValue)),
      entries.map (fun e => some e.1) = after.map (·.1) ∧
      ∀ value, readAttributes (.object (before ++ (some name, value) :: after) .closed) =
        (readAttribute value).map fun v => (front.insert name v).insertAll entries := by
  rw [readAttributes_eq, Json.foldMembers_append] at h
  obtain ⟨front, hfront, h⟩ := bind_eq_ok_iff.mp h
  rw [Json.foldMembers_cons] at h
  obtain ⟨_, -, h⟩ := bind_eq_ok_iff.mp h
  obtain ⟨entries, hkeys, hentries⟩ := exists_insertAll h
  refine ⟨front, entries, hkeys, fun value => ?_⟩
  rw [readAttributes_eq, Json.foldMembers_append, hfront, ok_bind, Json.foldMembers_cons,
    takeAttribute]
  cases readAttribute value with
  | error e => rfl
  | ok v => exact hentries (front.insert name v)

/-- The members of a node do not depend on the attributes read so far. -/
theorem NodeDraft.indifferent_field (key : String) (tree : Tree) :
    Indifferent (fun attrs d => { d with attributes := some attrs })
      fun d => NodeDraft.field d key tree := by
  unfold NodeDraft.field
  split
  case h_5 => exact .once_seen fun _ _ => rfl
  case h_8 => exact Indifferent.composable.check tree.skip
  all_goals exact .once (fun _ _ => rfl) fun _ _ _ => rfl

/-- A node that reads with one attribute map reads with every other as the same node with that
map. -/
theorem exists_readNode_fill {site : RecordSite NodeDraft.names "attributes"} {filler : Tree}
    {named : Nat → Node} (h : readNode (site.fill filler) = .ok named) :
    ∃ node : Nat → Node, ∀ tree, readNode (site.fill tree) =
      (readAttributes tree).map fun attrs i => { node i with attributes := attrs } := by
  obtain ⟨d, hd, hfinish⟩ := bind_eq_ok_iff.mp h
  obtain ⟨base, hbase⟩ :=
    site.exists_readRecord_fill (fun _ _ => rfl) NodeDraft.indifferent_field hd
  obtain ⟨attrs, -, rfl⟩ := map_eq_ok_iff.mp ((hbase filler).symm.trans hd)
  cases hop : base.op with
  | none => simp [NodeDraft.finish, hop] at hfinish
  | some op =>
    refine ⟨named, fun tree => ?_⟩
    simp only [NodeDraft.finish, hop, Except.ok.injEq] at hfinish
    subst hfinish
    rw [readNode, hbase]
    cases readAttributes tree with
    | error e => rfl
    | ok attrs => simp [NodeDraft.finish, hop, Except.map]

/-! ### One attribute of a file -/

/-- The members of a graph file do not depend on the nodes read so far. -/
theorem Draft.indifferent_field (key : String) (tree : Tree) :
    Indifferent (fun nodes d => { d with nodes := some nodes })
      fun d => Draft.field d key tree := by
  unfold Draft.field
  split
  · exact .once (fun _ _ => rfl) fun _ _ _ => rfl
  · exact .once_seen fun _ _ => rfl
  · exact Indifferent.composable.check tree.skip

/-- A graph file but for the value of one attribute of one node. -/
structure AttributeSite where
  root : RecordSite ["opset_import", "nodes"] "nodes"
  nodesBefore : List Tree
  nodesAfter : List Tree
  node : RecordSite NodeDraft.names "attributes"
  before : List (Option String × Tree)
  after : List (Option String × Tree)
  name : String

namespace AttributeSite

/-- The graph file with a tree for the value. -/
def fill (site : AttributeSite) (value : Tree) : Tree :=
  site.root.fill (.array (site.nodesBefore ++ site.node.fill
    (.object (site.before ++ (some site.name, value) :: site.after) .closed) :: site.nodesAfter)
    .closed)

/-- The place of the node. -/
def index (site : AttributeSite) : Nat := site.nodesBefore.length

/-- Whether no later attribute of the node has the same name. -/
def IsLast (site : AttributeSite) : Prop := ∀ m ∈ site.after, m.1 ≠ some site.name

end AttributeSite

/-- The attribute of a name that a node has. -/
def attribute? (file : GraphFile) (index : Nat) (name : String) : Option AttrValue :=
  file.nodes[index]?.bind fun node => node.attributes.get? name

/-- Where no later attribute has the name, what is read behind the value has other names. -/
theorem AttributeSite.IsLast.ne_of_mem {site : AttributeSite} (h : site.IsLast)
    {entries : List (String × AttrValue)}
    (hkeys : entries.map (fun e => some e.1) = site.after.map (·.1)) :
    ∀ e ∈ entries, e.1 ≠ site.name := by
  intro e he hname
  have hmem : some e.1 ∈ site.after.map (·.1) := hkeys ▸ List.mem_map_of_mem he
  obtain ⟨m, hm, hkey⟩ := List.mem_map.mp hmem
  exact h m hm (hkey.trans (congrArg some hname))

/-- The attribute of a node that was inserted before others of other names. -/
theorem attribute?_insertAll {opsets : List Opset} {front back : List Node} {node : Node}
    {attrs : Attributes} {name : String} {v : AttrValue} {entries : List (String × AttrValue)}
    (h : ∀ e ∈ entries, e.1 ≠ name) :
    attribute? ⟨opsets, front ++
      { node with attributes := (attrs.insert name v).insertAll entries } :: back⟩
      front.length name = some v := by
  have hnode : (front ++ { node with
      attributes := (attrs.insert name v).insertAll entries } :: back)[front.length]? =
        some { node with attributes := (attrs.insert name v).insertAll entries } := by simp
  rw [attribute?, hnode]
  exact (Attributes.get?_insertAll h).trans (Attributes.get?_insert.trans (if_pos rfl))

/-- A graph file that reads with one attribute value reads with every other as the same file with
what that value reads as. -/
theorem exists_ofDocument_fill {site : AttributeSite} {filler : Tree} {file : GraphFile}
    (h : ofDocument ⟨site.fill filler, true⟩ = .ok file) :
    ∃ (opsets : List Opset) (front : List Node) (node : Node) (back : List Node)
      (attrs : Attributes) (entries : List (String × AttrValue)), front.length = site.index ∧
      entries.map (fun e => some e.1) = site.after.map (·.1) ∧
      ∀ value, ofDocument ⟨site.fill value, true⟩ = (readAttribute value).map fun v =>
        ⟨opsets, front ++
          { node with attributes := (attrs.insert site.name v).insertAll entries } :: back⟩ := by
  obtain ⟨d, hd, hfinish⟩ := bind_eq_ok_iff.mp h
  obtain ⟨base, hbase⟩ := site.root.exists_readRecord_fill (fun _ _ => rfl) Draft.indifferent_field hd
  obtain ⟨nodes, hnodes, -⟩ := map_eq_ok_iff.mp ((hbase _).symm.trans hd)
  obtain ⟨front, back, hfront, hlist⟩ := Json.exists_listOf_append hnodes
  obtain ⟨named, hnamed, -⟩ := map_eq_ok_iff.mp ((hlist _).symm.trans hnodes)
  obtain ⟨node, hnode⟩ := exists_readNode_fill hnamed
  obtain ⟨attrs, hattrs, -⟩ := map_eq_ok_iff.mp ((hnode _).symm.trans hnamed)
  obtain ⟨before, entries, hkeys, hentries⟩ := exists_readAttributes_append hattrs
  refine ⟨base.opsets.getD [], front.zipIdx.map fun p => p.1 p.2, node front.length,
    (back.zipIdx (front.length + 1)).map fun p => p.1 p.2, before, entries,
    by simp [hfront, AttributeSite.index], hkeys, fun value => ?_⟩
  rw [ofDocument, AttributeSite.fill, hbase, hlist, hnode, hentries]
  cases readAttribute value with
  | error e => rfl
  | ok v => simp [Except.map, Draft.finish, List.zipIdx_append]

/-! ### The value decides -/

section Value

variable {value : Tree}

/-- A complete value that is not nested too deep is read as a whole before its kind is decided. -/
theorem readAttribute_eq (hcomplete : value.Complete)
    (hdepth : attributeDepth + value.height < Tree.depthLimit) :
    readAttribute value =
      match AttrValue.ofJson? value with
      | some v => .ok v
      | none => .error .mistyped := by
  have hcheck : value.check attributeDepth = .ok () :=
    (Tree.check_eq_ok_iff (by decide) value).mpr ⟨hcomplete, hdepth⟩
  rw [readAttribute, hcheck, ok_bind]
  rfl

/-- In a graph file that is valid but for one attribute value, the value alone decides: if it
denotes an attribute, the file reads, and the node has that attribute unless a later one has its
name; if it denotes none, the file does not describe a graph. Every value does one or the other. -/
theorem parse_attribute (site : AttributeSite) {filler : Tree} {file : GraphFile} {text : String}
    (hvalid : ofDocument ⟨site.fill filler, true⟩ = .ok file)
    (htext : Json.Document.read text = ⟨site.fill value, true⟩) (hcomplete : value.Complete)
    (hdepth : attributeDepth + value.height < Tree.depthLimit) :
    (∀ v, AttrValue.Denotes value v → ∃ file', parse text = .ok file' ∧
      (site.IsLast → file'.attribute? site.index site.name = some v)) ∧
    (AttrValue.Unfit value → parse text = .error .mistyped) ∧
    ((∃ v, AttrValue.Denotes value v) ∨ AttrValue.Unfit value) := by
  obtain ⟨opsets, front, node, back, attrs, entries, hfront, hkeys, hfill⟩ :=
    exists_ofDocument_fill hvalid
  have hparse : parse text = (readAttribute value).map fun v =>
      ⟨opsets, front ++
        { node with attributes := (attrs.insert site.name v).insertAll entries } :: back⟩ := by
    rw [parse, htext, hfill]
  have hread := readAttribute_eq hcomplete hdepth
  refine ⟨fun v hv => ?denotes, fun hunfit => ?unfit, ?total⟩
  case denotes =>
    rw [AttrValue.ofJson?_eq_some_iff.mpr hv] at hread
    refine ⟨_, hparse.trans (congrArg (Except.map _) hread), fun hlast => ?_⟩
    rw [← hfront]
    exact attribute?_insertAll (hlast.ne_of_mem hkeys)
  case unfit =>
    rw [(AttrValue.ofJson?_eq_none_iff hcomplete).mpr hunfit] at hread
    rw [hparse, hread]
    rfl
  case total =>
    cases h : AttrValue.ofJson? value with
    | some v => exact .inl ⟨v, AttrValue.ofJson?_eq_some_iff.mp h⟩
    | none => exact .inr ((AttrValue.ofJson?_eq_none_iff hcomplete).mp h)

/-- A list of numbers in a file with one node, one of them no integer: 0.1 is rounded up, and the
other one, just between two numbers, to the even one. -/
theorem parse_attribute_floats :
    ∃ file, parse ("\x7b\"nodes\": [\x7b\"name\": \"u\", \"op_type\": \"Upsample\", " ++
        "\"attributes\": \x7b\"scales\": [0.1, 16777217]\x7d\x7d]\x7d") = .ok file ∧
      file.attribute? 0 "scales" = some (.floats [⟨0x3dcccccd⟩, ⟨0x4b800000⟩]) := by
  -- any text for the value makes the file valid
  have hvalid : ofDocument ⟨AttributeSite.fill
      ⟨.member [] [], [], [],
        .member [(some "name", .string (some "u")), (some "op_type", .string (some "Upsample"))] [],
        [], [], "scales"⟩ (.string (some "")), true⟩ = .ok _ := rfl
  have hfloats : AttrValue.Denotes
      (.array [.number ⟨false, [0], some [1], none⟩,
        .number ⟨false, [1, 6, 7, 7, 7, 2, 1, 7], none, none⟩] .closed)
      (.floats [⟨0x3dcccccd⟩, ⟨0x4b800000⟩]) := by
    refine .floats (.cons ⟨_, ⟨_, rfl, rfl⟩, Binary32.roundsTo_iff.mpr ?_⟩
      (.cons ⟨_, ⟨_, rfl, rfl⟩, Binary32.roundsTo_iff.mpr ?_⟩ .nil))
      ⟨_, List.mem_cons_self, ?_⟩
    · decide
    · decide
    · rintro n ⟨_, h, hn⟩
      obtain rfl := Tree.number.inj h
      cases hn.fraction
  refine ((parse_attribute _ hvalid ?text ?complete ?depth).1 _ hfloats).imp
    fun file h => ⟨h.1, h.2 nofun⟩
  case text =>
    simp only [Json.Document.read, String.reduceAppend, String.reduceToList]
    rfl
  case complete => exact ⟨⟨rfl, rfl, trivial⟩, rfl⟩
  case depth => decide

end Value

end GraphFile

end KernelDispatch
