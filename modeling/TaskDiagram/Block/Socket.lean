import TaskDiagram.Block.Kind

/-!
# Sockets

The named places of a block into which other blocks are plugged. A value socket holds one block, a
statement socket the first block of a chain; `next` is where a chain goes on.
-/

namespace TaskDiagram

inductive SocketName where
  | object
  | location
  | action
  | when
  | body
  | otherwise
  | next
  deriving DecidableEq, Repr, Inhabited

/-- Whether a socket holds one block or a chain. -/
inductive SocketMode where
  | value
  | statement
  deriving DecidableEq, Repr

def SocketMode.name : SocketMode → String
  | value => "value"
  | statement => "statement"

namespace SocketName

/-- All sockets in their order. -/
def all : List SocketName :=
  [.object, .location, .action, .when, .body, .otherwise, .next]

def name : SocketName → String
  | object => "OBJECT"
  | location => "LOCATION"
  | action => "ACTION"
  | when => "WHEN"
  | body => "DO"
  | otherwise => "OTHERWISE"
  | next => "NEXT"

def mode : SocketName → SocketMode
  | object | location | action | when => .value
  | body | otherwise | next => .statement

/-- The socket in which a block keeps the reference to an item. -/
def ofEntity : LibraryKind → SocketName
  | .object => object
  | .location => location
  | .action => action

def toJson (socket : SocketName) : Json := .str socket.name

def table : List (String × SocketName) := all.map fun socket => (socket.name, socket)

def decode : Decoder SocketName := Decode.variant table

end SocketName

/-- Something or nothing in each socket. -/
structure Sockets (α : Type) where
  object : Option α := none
  location : Option α := none
  action : Option α := none
  when : Option α := none
  body : Option α := none
  otherwise : Option α := none
  next : Option α := none
  deriving DecidableEq, Repr, Inhabited

namespace Sockets

variable {α : Type}

def empty : Sockets α := {}

def get? (s : Sockets α) : SocketName → Option α
  | .object => s.object
  | .location => s.location
  | .action => s.action
  | .when => s.when
  | .body => s.body
  | .otherwise => s.otherwise
  | .next => s.next

def set (s : Sockets α) (content : Option α) : SocketName → Sockets α
  | .object => { s with object := content }
  | .location => { s with location := content }
  | .action => { s with action := content }
  | .when => { s with when := content }
  | .body => { s with body := content }
  | .otherwise => { s with otherwise := content }
  | .next => { s with next := content }

/-- What is plugged in, in the order of the sockets. -/
def toList (s : Sockets α) : List (SocketName × α) :=
  SocketName.all.filterMap fun socket => (s.get? socket).map (socket, ·)

@[simp]
theorem get?_empty (socket : SocketName) : (empty : Sockets α).get? socket = none := by
  cases socket <;> rfl

theorem get?_set (s : Sockets α) (content : Option α) (socket other : SocketName) :
    (s.set content socket).get? other = if other = socket then content else s.get? other := by
  cases socket <;> cases other <;> rfl

theorem ext_get? {s t : Sockets α} (h : ∀ socket, s.get? socket = t.get? socket) : s = t := by
  have h1 := h .object
  have h2 := h .location
  have h3 := h .action
  have h4 := h .when
  have h5 := h .body
  have h6 := h .otherwise
  have h7 := h .next
  cases s
  cases t
  simp_all [get?]

end Sockets

end TaskDiagram
