import RouteSync.Json.Decode
import RouteSync.Json.Writer

/-!
# Accounts as JSON

An account is an object with its id, its relationship and the two wishes about routes, which may be
left out.
-/

namespace RouteSync

open Json

/-- The words for the relationships. -/
def Relationship.words : List (String × Relationship) :=
  [("parent", .parent), ("peer", .peer), ("child", .child)]

namespace Account

/-- A wish that may not have been said. -/
def wishTree : Option Bool → Tree
  | some b => .bool b
  | none => .null

def toTree (a : Account) : Tree :=
  .fields
    [("id", .text (some a.id.text)),
      ("relationship", .text (some a.relationship.name)),
      ("send_routes", wishTree a.sendRoutes),
      ("receive_routes", wishTree a.receiveRoutes)]

/-- The fields of an account read so far. -/
structure Draft where
  id : Option AccountId := none
  relationship : Option Relationship := none
  sendRoutes : Option (Option Bool) := none
  receiveRoutes : Option (Option Bool) := none

/-- Take one field of an object in. -/
def Draft.field (d : Draft) (name : String) (t : Tree) : Decoded Draft := do
  match name with
  | "id" =>
    return { d with id := ← Decoded.once name d.id fun _ => t.asAccountId }
  | "relationship" =>
    return { d with
      relationship := ← Decoded.once name d.relationship fun _ => t.asVariant Relationship.words }
  | "send_routes" =>
    return { d with
      sendRoutes := ← Decoded.once name d.sendRoutes fun _ => t.asOptional Tree.asBool }
  | "receive_routes" =>
    return { d with
      receiveRoutes := ← Decoded.once name d.receiveRoutes fun _ => t.asOptional Tree.asBool }
  | _ =>
    t.skip
    return d

/-- The account, if all fields are there that have to be. -/
def Draft.finish (d : Draft) : Decoded Account := do
  let id ← Decoded.required "id" d.id
  let relationship ← Decoded.required "relationship" d.relationship
  return ⟨id, relationship, d.sendRoutes.getD none, d.receiveRoutes.getD none⟩

/-- Read an account; as an array it may leave the wishes out. -/
def ofTree : Tree → Decoded Account
  | .object fields => do
    let draft ← Tree.fillFrom Draft.field {} fields
    draft.finish
  | .array items => do
    let (id, items) ← Tree.next Tree.asAccountId items
    let (relationship, items) ← Tree.next (Tree.asVariant Relationship.words) items
    let (sendRoutes, items) ← Tree.nextOr none (Tree.asOptional Tree.asBool) items
    let (receiveRoutes, items) ← Tree.nextOr none (Tree.asOptional Tree.asBool) items
    Tree.noMore items
    return ⟨id, relationship, sendRoutes, receiveRoutes⟩
  | _ => .error .malformed

/-- The JSON text of an account. -/
def toJson (a : Account) : String :=
  Text.ofUtf8Lossy a.toTree.write

/-- Read an account from JSON text. -/
def ofJson (text : String) : Decoded Account :=
  Tree.decode ofTree (Text.utf8Bytes text)

end Account

end RouteSync
