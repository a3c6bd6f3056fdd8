import KernelDispatch.Graph.Node
import KernelDispatch.Json.Reader
import KernelDispatch.Json.Typed
import KernelDispatch.Operator.Opset

/-!
# Graph files

A graph file is a JSON record of opset imports and nodes. A node without a name is named after its
operator and its place. The kind of an attribute follows from its value: integers are tried before
other numbers, so that `1` is an integer and `1.0` is not.
-/

namespace KernelDispatch

open Json (Fault Tree Numeral Literal)

/-- Opset imports and nodes of a graph, in file order. -/
structure GraphFile where
  opsets : List Opset
  nodes : List Node
deriving DecidableEq

/-- The number of a literal as an attribute: an integer of 64 bits, or the binary32 number nearest
to its binary64 value. -/
def AttrValue.ofNumeral : Numeral → AttrValue
  | .integer n =>
    if Int64.minValue.toInt ≤ n ∧ n ≤ Int64.maxValue.toInt then .int (.ofInt n)
    else .float (.ofFloat n.toNat.toUInt64.toFloat)
  | .real x => .float (.ofFloat x)

/-- The integer of a tree, if it is one of 64 bits. -/
def Json.Tree.int? : Tree → Option Int64
  | .number literal =>
    match literal.value?.map AttrValue.ofNumeral with
    | some (.int n) => some n
    | _ => none
  | _ => none

/-- The binary32 number nearest to the number of a tree. -/
def Json.Tree.float? : Tree → Option Binary32
  | .number literal =>
    literal.value?.map fun
      | .integer n =>
        .ofFloat (if n < 0 then n.toInt64.toFloat else n.toNat.toUInt64.toFloat)
      | .real x => .ofFloat x
  | _ => none

/-- The text of a tree. -/
def Json.Tree.string? : Tree → Option String
  | .string text => text
  | _ => none

/-- The attribute that a complete tree denotes. -/
def AttrValue.ofJson? : Tree → Option AttrValue
  | .number literal => literal.value?.map ofNumeral
  | .string text => text.map .string
  | .array items _ =>
    match items.mapM Tree.int? with
    | some ns => some (.ints ns)
    | none =>
      match items.mapM Tree.float? with
      | some xs => some (.floats xs)
      | none => (items.mapM Tree.string?).map .strings
  | _ => none

namespace GraphFile

/-- How many records, lists and maps enclose the attributes of a node. -/
def attributeDepth : Nat := 4

/-- The value of an attribute; it is read as a whole before its kind is decided. -/
def readAttribute (tree : Tree) : Except Fault AttrValue := do
  tree.check attributeDepth
  match AttrValue.ofJson? tree with
  | some v => return v
  | none => throw .mistyped

/-- An attribute map; of two entries with one name the later counts. -/
def readAttributes (tree : Tree) : Except Fault Attributes :=
  tree.foldMembers (fun attrs name value => do return attrs.insert name (← readAttribute value))
    .empty

/-- An opset version. -/
def readVersion (tree : Tree) : Except Fault UInt32 :=
  (tree.naturalBelow UInt32.size).map UInt32.ofNat

/-- A list of storage slots. -/
def readSlots (tree : Tree) : Except Fault (List Nat) := tree.listOf (Tree.naturalBelow wordSize)

/-- What has been read of an opset import. -/
structure OpsetDraft where
  domain : Option String
  version : Option UInt32

namespace OpsetDraft

/-- Take one member. -/
def field (d : OpsetDraft) (name : String) (tree : Tree) : Except Fault OpsetDraft :=
  match name with
  | "domain" => Json.once d.domain tree.text fun s => { d with domain := some s }
  | "version" => Json.once d.version (readVersion tree) fun v => { d with version := some v }
  | _ => do
    tree.skip
    return d

/-- The opset import; it must have a version, and has the standard domain by default. -/
def finish (d : OpsetDraft) : Except Fault Opset :=
  match d.version with
  | some version => .ok (.of (d.domain.getD "") version)
  | none => .error .mistyped

end OpsetDraft

/-- An opset import. -/
def readOpset (tree : Tree) : Except Fault Opset := do
  let d ← Json.readRecord ["domain", "version"] OpsetDraft.field ⟨none, none⟩ tree
  d.finish

/-- What has been read of a node. -/
structure NodeDraft where
  name : Option (Option String)
  op : Option String
  domain : Option (Option String)
  version : Option (Option UInt32)
  attributes : Option Attributes
  inputs : Option (List Nat)
  outputs : Option (List Nat)

namespace NodeDraft

/-- Nothing read yet. -/
def blank : NodeDraft := ⟨none, none, none, none, none, none, none⟩

/-- The members of a node, in the order in which an array gives them. -/
def names : List String :=
  ["name", "op_type", "domain", "version", "attributes", "inputs", "outputs"]

/-- Take one member. -/
def field (d : NodeDraft) (name : String) (tree : Tree) : Except Fault NodeDraft :=
  match name with
  | "name" => Json.once d.name (tree.optional Tree.text) fun s => { d with name := some s }
  | "op_type" => Json.once d.op tree.text fun s => { d with op := some s }
  | "domain" => Json.once d.domain (tree.optional Tree.text) fun s => { d with domain := some s }
  | "version" =>
    Json.once d.version (tree.optional readVersion) fun v => { d with version := some v }
  | "attributes" =>
    Json.once d.attributes (readAttributes tree) fun a => { d with attributes := some a }
  | "inputs" => Json.once d.inputs (readSlots tree) fun ns => { d with inputs := some ns }
  | "outputs" => Json.once d.outputs (readSlots tree) fun ns => { d with outputs := some ns }
  | _ => do
    tree.skip
    return d

/-- The node, still without the name that its place gives it; it must have an operator. -/
def finish (d : NodeDraft) : Except Fault (Nat → Node) :=
  match d.op with
  | some op => .ok fun i =>
    ⟨d.name.join.getD s!"{op}_{i}", op, d.domain.join, d.version.join,
      d.attributes.getD .empty, d.inputs.getD [], d.outputs.getD []⟩
  | none => .error .mistyped

end NodeDraft

/-- A node, as a function of its place in the file. -/
def readNode (tree : Tree) : Except Fault (Nat → Node) := do
  let d ← Json.readRecord NodeDraft.names NodeDraft.field .blank tree
  d.finish

/-- What has been read of a graph file. -/
structure Draft where
  opsets : Option (List Opset)
  nodes : Option (List (Nat → Node))

namespace Draft

/-- Take one member. -/
def field (d : Draft) (name : String) (tree : Tree) : Except Fault Draft :=
  match name with
  | "opset_import" =>
    Json.once d.opsets (tree.listOf readOpset) fun os => { d with opsets := some os }
  | "nodes" => Json.once d.nodes (tree.listOf readNode) fun ns => { d with nodes := some ns }
  | _ => do
    tree.skip
    return d

/-- The graph file; it must have nodes. -/
def finish (d : Draft) : Except Fault GraphFile :=
  match d.nodes with
  | some nodes => .ok ⟨d.opsets.getD [], nodes.zipIdx.map fun p => p.1 p.2⟩
  | none => .error .mistyped

end Draft

/-- The graph file that a JSON document describes. -/
def ofDocument (doc : Json.Document) : Except Fault GraphFile := do
  let d ← Json.readRecord ["opset_import", "nodes"] Draft.field ⟨none, none⟩ doc.root
  let file ← d.finish
  if doc.complete then return file else throw .malformed

/-- Read a graph file. -/
def parse (text : String) : Except Fault GraphFile := ofDocument (.read text)

end GraphFile

end KernelDispatch
