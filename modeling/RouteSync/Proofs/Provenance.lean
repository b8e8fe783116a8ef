import Mathlib.Logic.Function.Iterate
import RouteSync.Proofs.Mesh

/-!
# Paths and tags tell where a route comes from

In a mesh every route that a node holds went through the nodes on its path, one after the other, and
its tag was made by the last of them and hashed once by every node that it went through
(`provenance_of_run`).  Nothing is asked of the digests.

A route in use is followed back in the form in which its node passes it on: the node's own address
stands in front of the path then, also where the route is the node's own and its path is empty.  So
one property serves for the routes in use, for those on the way and for those that arrive
(`AdvertisedRoute.IsGenuine`).
-/

namespace RouteSync

variable {ι : Type} (settings : ι → Settings)

/-- Whether the path of a route is one through different nodes, to one that made its tag. -/
def AdvertisedRoute.IsGenuine (a : AdvertisedRoute) : Prop :=
  a.path.Nodup ∧ ∃ origin, a.path.getLast? = some (settings origin).operator ∧
    a.auth = nextTag^[a.path.length] (originTag (settings origin).routingSecret a.target)

variable {settings}

/-- A route that a node makes itself is genuine once it is passed on. -/
theorem Route.IsSelfMade.isGenuine {i : ι} {r : Route}
    (h : r.IsSelfMade (settings i).routingSecret) :
    (r.forwarded (settings i).operator).advertised.IsGenuine settings := by
  simp only [Route.forwarded, Route.advertised, h.path_eq, h.auth_eq]
  exact ⟨List.nodup_cons.2 ⟨List.not_mem_nil, List.nodup_nil⟩, i, rfl, rfl⟩

/-- A genuine route stays so when another node passes it on. -/
theorem AdvertisedRoute.IsGenuine.forwarded {a : AdvertisedRoute} (h : a.IsGenuine settings)
    {operator : Address} (hoperator : operator ∉ a.path) :
    IsGenuine settings ⟨a.target, operator :: a.path, nextTag a.auth⟩ := by
  obtain ⟨hnodup, origin, hlast, hauth⟩ := h
  refine ⟨List.nodup_cons.2 ⟨hoperator, hnodup⟩, origin, ?_, ?_⟩
  · show (operator :: a.path).getLast? = _
    rw [List.getLast?_cons, hlast]
    rfl
  · show nextTag a.auth = nextTag^[a.path.length + 1] _
    rw [Function.iterate_succ_apply', hauth]

variable (settings) (behind : ι → AccountId → Option ι)

/-- A node holds genuine routes only.  They come from the node behind the account, whose address is
the first of the path, and did not go through the node itself.  Those in use are genuine once they
are passed on. -/
def originLaw (i : ι) : RouteLaw where
  settings s := s = settings i
  held r := AdvertisedRoute.IsGenuine settings ⟨r.target, r.path, r.auth⟩ ∧
    (settings i).operator ∉ r.path ∧
    ∃ j, behind i r.peer = some j ∧ r.path.head? = some (settings j).operator
  used r := (r.forwarded (settings i).operator).advertised.IsGenuine settings
  selfMade := by
    rintro s rfl r hr
    exact hr.isGenuine
  learned r hr := hr.1.forwarded hr.2.1

/-- What nodes tell is genuine and bears their own address in front. -/
def originMeshLaw : MeshLaw behind where
  law := originLaw settings behind
  told i a := a.IsGenuine settings ∧ a.path.head? = some (settings i).operator
  tells := by
    rintro i p r ⟨s, policy, own, rfl, hoperator, -, hused, -, hr⟩
    obtain ⟨own', hown, rfl⟩ := ExportPolicy.forwarded_of_advertised hr
    cases hown
    rw [hoperator]
    exact ⟨hused, rfl⟩
  hears := by
    rintro i account j hbehind s rfl a ⟨hgenuine, hhead⟩ hadmits
    simp only [Settings.admits, Bool.and_eq_true, Bool.not_eq_eq_eq_not, Bool.not_true] at hadmits
    have hpath : (settings i).operator ∉ a.path := by simpa using hadmits.2
    exact ⟨hgenuine, hpath, j, hbehind, hhead⟩

namespace Mesh

variable {settings behind}

/-- Nodes that were just built and have sent nothing. -/
def start (codec : Codec) (settings : ι → Settings) (directories : ι → Directory)
    (filters : ι → Option (Prefix → Route → Bool)) (ids : ι → TableId) (links : ι → List Link) :
    Mesh ι where
  nodes i := .fresh (settings i) (directories i) codec (filters i) (ids i) (links i)

/-- In every mesh of nodes with different addresses and fixed settings, whoever stands behind their
accounts, whatever their directories, their filters and their links are like, and however packets
are lost, repeated, delayed and overtaken: every route that a receiver holds has a path that is not
empty, names no node twice, begins with the address of the node that advertised the route, and does
not name the node that holds it.  Its tag is the one that the last node of the path gives to the
prefix, hashed as many times as the path is long. -/
theorem provenance_of_run [DecidableEq ι]
    (hoperators : Function.Injective fun i => (settings i).operator) {codec : Codec}
    (hcodec : codec.IsFaithful) {directories : ι → Directory}
    {filters : ι → Option (Prefix → Route → Bool)} {ids : ι → TableId} {links : ι → List Link}
    {acts : List (Act ι)} (hacts : ∀ a ∈ acts, a.IsHonest) :
    let w := (start codec settings directories filters ids links).run behind acts
    ∀ i, ∀ session ∈ (w.nodes i).sessions, ∀ r ∈ session.receiver.routes.entries,
      r.path ≠ [] ∧ r.path.Nodup ∧
      (∃ j, behind i r.peer = some j ∧ r.path.head? = some (settings j).operator) ∧
      (settings i).operator ∉ r.path ∧
      ∃ origin, (∀ j, r.path.getLast? = some (settings j).operator ↔ j = origin) ∧
        r.auth = nextTag^[r.path.length] (originTag (settings origin).routingSecret r.target) := by
  intro w i session hsession r hr
  have hstart : (start codec settings directories filters ids links).Obeys codec
      (originMeshLaw settings behind) :=
    ⟨fun i => Node.steady_fresh rfl _ codec _ _ _, fun s hs => by cases hs⟩
  have hw : w.Obeys codec (originMeshLaw settings behind) := hstart.run hcodec hacts
  obtain ⟨s, hs, rfl⟩ := List.mem_iff_getElem.1 hsession
  have hheld := (hw.steady i).obeys.receivers ⟨s⟩ _ (List.getElem?_eq_getElem hs) r.target r
    (RouteTable.get?_of_mem _ hr)
  obtain ⟨⟨hnodup, origin, hlast, hauth⟩, hown, j, hbehind, hhead⟩ := hheld
  refine ⟨?_, hnodup, ⟨j, hbehind, hhead⟩, hown, origin, fun k => ?_, hauth⟩
  · rintro hnil
    rw [hnil] at hhead
    cases hhead
  · rw [hlast, Option.some.injEq]
    exact ⟨fun h => (hoperators h).symm, fun h => h ▸ rfl⟩

/-! ### Three nodes in a row -/

open Node (smallPeer friend twoPeers)

/-- The addresses of the nodes. -/
def rowOperator : Fin 3 → Address
  | 0 => ⟨"g.first".toList, by decide⟩
  | 1 => ⟨"g.second".toList, by decide⟩
  | 2 => ⟨"g.third".toList, by decide⟩

/-- Every node has a secret of its own. -/
def rowSettings (i : Fin 3) : Settings where
  operator := rowOperator i
  routingSecret := .replicate (UInt8.ofNat i)
  defaultRoute := some friend.id

/-- The peer of each node is the one before it, and the friend is the one behind it. -/
def rowBehind (i : Fin 3) (account : AccountId) : Option (Fin 3) :=
  if account = smallPeer.id ∧ i ≠ 0 then some (i - 1)
  else if account = friend.id ∧ i ≠ 2 then some (i + 1)
  else none

/-- The identifier of every outgoing table. -/
def rowTable : TableId :=
  ⟨List.replicate 16 3, by decide⟩

def rowLinks : List Link :=
  [{ account := smallPeer.id }, { account := friend.id }]

/-- The second node asks the first one for routes and gets its answer twice, and then the third node
asks the second one. -/
def rowActs : List (Act (Fin 3)) :=
  [.move 0 .reload,
    .move 0 (.event ⟨friend.id, .connected⟩),
    .move 1 (.event ⟨smallPeer.id, .connected⟩),
    .move 1 (.begin .origin 0 (.requestRoutes ⟨0⟩)),
    .deliver 0 0 friend.id .origin,
    .move 0 (.begin .origin 0 (.sendUpdate ⟨0⟩)),
    .deliver 1 1 smallPeer.id .origin,
    .deliver 1 1 smallPeer.id .origin,
    .move 1 (.event ⟨friend.id, .connected⟩),
    .move 2 (.event ⟨smallPeer.id, .connected⟩),
    .move 2 (.begin .origin 0 (.requestRoutes ⟨0⟩)),
    .deliver 2 1 friend.id .origin,
    .move 1 (.begin .origin 0 (.sendUpdate ⟨1⟩)),
    .deliver 3 2 smallPeer.id .origin]

/-- The third node holds a route that went through the second one and was made by the first one. -/
theorem provenance_of_row :
    let w := (start .json rowSettings (fun _ => twoPeers) (fun _ => none) (fun _ => rowTable)
      fun _ => rowLinks).run rowBehind rowActs
    (Function.Injective fun i => (rowSettings i).operator) ∧ Codec.json.IsFaithful ∧
      (∀ a ∈ rowActs, a.IsHonest) ∧
      ∃ session ∈ (w.nodes 2).sessions, ∃ r ∈ session.receiver.routes.entries,
        r.path = [rowOperator 1, rowOperator 0] ∧
        r.auth = nextTag (nextTag (originTag (rowSettings 0).routingSecret r.target)) := by
  intro w
  have hoperators : Function.Injective fun i => (rowSettings i).operator := by
    intro i j
    revert i j
    decide
  have hacts : ∀ a ∈ rowActs, a.IsHonest := by
    simp [rowActs, Act.IsHonest, Node.Move.IsLocal]
  have hheld : (w.nodes 2).sessions.any fun session =>
      session.receiver.routes.entries.any fun r =>
        decide (r.path = [rowOperator 1, rowOperator 0]) := by
    decide +kernel
  obtain ⟨session, hsession, hany⟩ := List.any_eq_true.1 hheld
  obtain ⟨r, hr, hpath⟩ := List.any_eq_true.1 hany
  have hpath := of_decide_eq_true hpath
  obtain ⟨-, -, -, -, origin, hlast, hauth⟩ := provenance_of_run hoperators
    Codec.json_isFaithful hacts 2 session hsession r hr
  have horigin : 0 = origin := (hlast 0).1 (by rw [hpath]; rfl)
  rw [hpath, ← horigin] at hauth
  exact ⟨hoperators, Codec.json_isFaithful, hacts, session, hsession, r, hr, hpath, hauth⟩

end Mesh

end RouteSync
