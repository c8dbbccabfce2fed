import Restraint.Lib.CString
import Mathlib.Data.List.TakeWhile

/-! Document trees: elements with attributes and children, and everything else. Names are without a
namespace. Nodes are found by name and position, and changed in place. Attributes keep the order in
which they were set, and a lookup takes the first. Text and comments are kept as nodes, for they
stand between elements. -/
namespace Xml
open CString (Text)

inductive Node where
  | element (name : String) (props : List (String × Text)) (children : List Node)
  | other (content : Text)

/-- Sets an attribute; a new one comes last. -/
def setProp (name : String) (value : Text) : List (String × Text) → List (String × Text)
  | [] => [(name, value)]
  | own :: rest => if own.1 = name then (name, value) :: rest else own :: setProp name value rest

/-- Changes the first node of a kind; where there is none a new one comes last. -/
def updateFirst (kind : Node → Bool) (new : Node) (change : Node → Node) : List Node → List Node
  | [] => [change new]
  | node :: rest =>
    if kind node then change node :: rest else node :: updateFirst kind new change rest

/-- Changes every node of a kind, numbered from `i` on. -/
def mapKind (kind : Node → Bool) (change : Nat → Node → Node) : Nat → List Node → List Node
  | _, [] => []
  | i, node :: rest =>
    if kind node then change i node :: mapKind kind change (i + 1) rest
    else node :: mapKind kind change i rest

namespace Node

/-- The node is an element of that name. -/
def isNamed (name : String) : Node → Bool
  | element own _ _ => own == name
  | other _ => false

def prop (name : String) : Node → Option Text
  | element _ props _ => props.lookup name
  | other _ => none

def children : Node → List Node
  | element _ _ children => children
  | other _ => []

/-- The children of that name. -/
def named (name : String) (node : Node) : List Node := node.children.filter (isNamed name)

/-- The first child of that name. -/
def firstNamed (name : String) (node : Node) : Option Node := node.children.find? (isNamed name)

def setProp (name : String) (value : Text) : Node → Node
  | element own props children => element own (Xml.setProp name value props) children
  | other content => other content

/-- Changes the list of children. -/
def withChildren (change : List Node → List Node) : Node → Node
  | element own props children => element own props (change children)
  | other content => other content

/-- Changes the children of that name, by their number among them. -/
def mapNamed (name : String) (change : Nat → Node → Node) : Node → Node :=
  withChildren (mapKind (isNamed name) change 0)

mutual
/-- The elements of that name in document order, the node itself included. -/
def descendants (kind : Node → Bool) : Node → List Node
  | element own props children =>
    [element own props children].filter kind ++ descendantsOf kind children
  | other content => [other content].filter kind

def descendantsOf (kind : Node → Bool) : List Node → List Node
  | [] => []
  | node :: rest => descendants kind node ++ descendantsOf kind rest
end

end Node

open Node

variable {node new : Node} {nodes : List Node} {name own : String} {value : Text}
  {props : List (String × Text)} {kind : Node → Bool} {change : Node → Node}

/-! ## Attributes -/

theorem lookup_cons {key : String} : ((key, value) :: props).lookup own =
    if own = key then some value else props.lookup own := by
  by_cases same : own = key
  · simp [same]
  · have differ : (own == key) = false := beq_false_of_ne same
    simp [List.lookup_cons, differ, same]

private theorem lookup_setProp : (setProp name value props).lookup own =
    if own = name then some value else props.lookup own := by
  induction props with
  | nil => exact lookup_cons
  | cons head rest ih =>
    obtain ⟨key, old⟩ := head
    unfold setProp
    by_cases found : key = name
    · subst key
      simp only [↓reduceIte, lookup_cons]
      split <;> rfl
    · simp only [found, ↓reduceIte, lookup_cons, ih]
      by_cases same : own = key
      · subst own
        simp [found]
      · simp [same]

theorem prop_setProp (element : node.isNamed own = true) :
    (node.setProp name value).prop name = some value := by
  cases node with
  | element own props children => exact lookup_setProp.trans (if_pos rfl)
  | other content => cases element

theorem prop_setProp_of_ne (differ : own ≠ name) :
    (node.setProp name value).prop own = node.prop own := by
  cases node with
  | element _ props children => exact lookup_setProp.trans (if_neg differ)
  | other content => rfl

@[simp] theorem isNamed_setProp :
    (node.setProp name value).isNamed own = node.isNamed own := by
  cases node <;> rfl

@[simp] theorem children_setProp : (node.setProp name value).children = node.children := by
  cases node <;> rfl

@[simp] theorem isNamed_withChildren {change : List Node → List Node} :
    (node.withChildren change).isNamed own = node.isNamed own := by
  cases node <;> rfl

@[simp] theorem prop_withChildren {change : List Node → List Node} :
    (node.withChildren change).prop own = node.prop own := by
  cases node <;> rfl

theorem children_withChildren {change : List Node → List Node} (element : node.isNamed own = true) :
    (node.withChildren change).children = change node.children := by
  cases node with
  | element => rfl
  | other content => cases element

/-! ## Nodes of a kind -/

theorem isNamed_unique (named : node.isNamed name = true) : node.isNamed own = (own == name) := by
  cases node with
  | element of _ _ =>
    have same : of = name := by simpa [Node.isNamed] using named
    rw [Node.isNamed, same]
    exact Bool.beq_comm
  | other => cases named

/-- Where a name is not given twice, the first child of it is the only one. -/
theorem named_eq_toList (single : (node.named name).length ≤ 1) :
    node.named name = (node.firstNamed name).toList := by
  unfold Node.named at single ⊢
  rw [Node.firstNamed, ← List.head?_filter]
  match node.children.filter (isNamed name), single with
  | [], _ => rfl
  | [_], _ => rfl

/-- What is found of a kind after a change to the first of the kind. -/
theorem find?_updateFirst (fresh : kind (change new) = true)
    (kept : ∀ node, kind node = true → kind (change node) = true) :
    (updateFirst kind new change nodes).find? kind = some (change ((nodes.find? kind).getD new)) := by
  induction nodes with
  | nil => simp [updateFirst, fresh]
  | cons node rest ih =>
    unfold updateFirst
    split
    · rename_i found
      simp [found, kept node found]
    · rename_i missing
      simp [missing, ih]

/-- A change to the first of one kind leaves the other kinds. -/
theorem find?_updateFirst_of_other {another : Node → Bool} (fresh : another (change new) = false)
    (apart : ∀ node, kind node = true → another node = false ∧ another (change node) = false) :
    (updateFirst kind new change nodes).find? another = nodes.find? another := by
  induction nodes with
  | nil => simp [updateFirst, fresh]
  | cons node rest ih =>
    unfold updateFirst
    split
    · rename_i found
      simp [apart node found]
    · simp only [List.find?_cons, ih]

private theorem filter_mapKind {change : Nat → Node → Node} {i : Nat}
    (kept : ∀ i node, kind node = true → kind (change i node) = true) :
    (mapKind kind change i nodes).filter kind =
      (nodes.filter kind).mapIdx fun n node => change (i + n) node := by
  induction nodes generalizing i with
  | nil => rfl
  | cons node rest ih =>
    unfold mapKind
    split
    · rename_i found
      rw [List.filter_cons_of_pos (kept i node found), List.filter_cons_of_pos found, ih,
        List.mapIdx_cons]
      simp only [Nat.add_assoc, Nat.add_comm 1, Nat.add_zero]
    · rename_i missing
      rw [List.filter_cons_of_neg missing, List.filter_cons_of_neg missing, ih]

/-- The children of a name after a change of each of them. -/
theorem named_mapNamed {change : Nat → Node → Node}
    (kept : ∀ i node, (change i node).isNamed name = node.isNamed name) :
    (node.mapNamed name change).named name = (node.named name).mapIdx change := by
  cases node with
  | element own props children =>
    refine (filter_mapKind fun i node found => (kept i node).trans found).trans ?_
    simp [named, Node.children]
  | other content => rfl

end Xml
