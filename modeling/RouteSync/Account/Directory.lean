import RouteSync.Account.Basic

/-!
# The accounts of a node

The directory lists the accounts in a fixed order, names the link to each, and may give the routes
of an account a weight other than that of its relationship.
-/

namespace RouteSync

/-- A link of the node. -/
structure LinkId where
  index : Nat
  deriving DecidableEq

/-- The accounts of a node, their links and their weights. -/
structure Directory where
  accounts : List Account := []
  links : List (AccountId × LinkId) := []
  weights : List (AccountId × Nat) := []
  deriving DecidableEq

namespace Directory

/-- The first account with the given id. -/
def account? (d : Directory) (id : AccountId) : Option Account :=
  d.accounts.find? (·.id == id)

/-- Whether there is an account with the given id. -/
def knows (d : Directory) (id : AccountId) : Bool :=
  (d.account? id).isSome

/-- The link of an account. -/
def link? (d : Directory) (id : AccountId) : Option LinkId :=
  d.links.lookup id

/-- The first parent. -/
def primaryParent? (d : Directory) : Option Account :=
  d.accounts.find? Account.isParent

/-- The accounts that get an address below the node's own. -/
def children (d : Directory) : List Account :=
  d.accounts.filter Account.isChild

/-- How strongly routes learned from an account are preferred; an unknown account has no weight. -/
def routeWeight? (d : Directory) (id : AccountId) : Option Nat :=
  (d.account? id).map fun a => (d.weights.lookup id).getD a.relationship.weight

/-- Add an account behind all others. -/
def addAccount (d : Directory) (a : Account) : Directory :=
  { d with accounts := d.accounts ++ [a] }

/-- Remove every account with the given id.  Their links stay. -/
def removeAccount (d : Directory) (id : AccountId) : Directory :=
  { d with accounts := d.accounts.filter (·.id != id) }

/-- Give the routes of an account another weight. -/
def setWeight (d : Directory) (id : AccountId) (weight : Nat) : Directory :=
  { d with weights := (id, weight) :: d.weights }

end Directory

end RouteSync
