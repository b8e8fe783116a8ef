import RouteSync.Packet.Described

/-!
# Accounts

A node has an account for every party that it is linked to.  An account's id doubles as the last
segment of a child's address, so it is made of the same characters as a segment.
-/

namespace RouteSync

/-- The name of an account. -/
structure AccountId where
  chars : List Char
  wellFormed : isSegment chars = true
  deriving DecidableEq

/-- Why a text is not an account id. -/
structure AccountIdError where
  text : String
  deriving DecidableEq, Repr

/-- The wording of an `AccountIdError`. -/
def AccountIdError.message (e : AccountIdError) : String :=
  "invalid account id: " ++ Text.quote e.text

namespace AccountId

/-- The id with the given text, if the text is well formed. -/
def ofChars? (cs : List Char) : Option AccountId :=
  if h : isSegment cs = true then some ⟨cs, h⟩ else none

/-- Read an id. -/
def parse (text : String) : Except AccountIdError AccountId :=
  match ofChars? text.toList with
  | some a => .ok a
  | none => .error ⟨text⟩

/-- The text of an id. -/
def text (a : AccountId) : String :=
  String.ofList a.chars

def described (a : AccountId) : String :=
  wrapped "AccountId" a.text

/-- The next hop of the route to the node's own address. -/
def self : AccountId :=
  ⟨['s', 'e', 'l', 'f'], by decide⟩

/-- Ids are ordered by their text. -/
instance : Ord AccountId where
  compare a b := compare a.chars b.chars

end AccountId

/-- How the node stands to the owner of an account. -/
inductive Relationship where
  | parent
  | peer
  | child
  deriving DecidableEq, Repr

namespace Relationship

/-- How strongly the routes of an account are preferred; larger weights win. -/
def weight : Relationship → Nat
  | .parent => 200
  | .peer => 100
  | .child => 50

/-- The word for a relationship. -/
def name : Relationship → String
  | .parent => "parent"
  | .peer => "peer"
  | .child => "child"

/-- The relationship with the given word. -/
def ofName? (name : String) : Option Relationship :=
  [Relationship.parent, .peer, .child].find? (·.name == name)

/-- Read a relationship in any mixture of cases.  No letter outside of ASCII has a lower-case form
that occurs in the three words. -/
def parse? (text : String) : Option Relationship :=
  ofName? (String.ofList (text.toList.map Char.toLower))

/-- The complaint about a text that is no relationship. -/
def unknownMessage (text : String) : String :=
  "unknown account relationship: " ++ text

end Relationship

/-- What the routing of a node knows about one account. -/
structure Account where
  id : AccountId
  relationship : Relationship
  /-- Whether the account is sent routes, if this was said. -/
  sendRoutes : Option Bool := none
  /-- Whether routes are accepted from the account, if this was said. -/
  receiveRoutes : Option Bool := none
  deriving DecidableEq

namespace Account

def isParent (a : Account) : Bool :=
  a.relationship == .parent

def isChild (a : Account) : Bool :=
  a.relationship == .child

/-- Parents and peers are sent routes unless it was said otherwise, children are not. -/
def sendsRoutes (a : Account) : Bool :=
  a.sendRoutes.getD !a.isChild

/-- Routes are accepted from parents and peers unless it was said otherwise, and not from
children. -/
def receivesRoutes (a : Account) : Bool :=
  a.receiveRoutes.getD !a.isChild

end Account

end RouteSync
