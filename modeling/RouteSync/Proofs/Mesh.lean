import Mathlib.Logic.Function.Basic
import RouteSync.Proofs.Chronicle
import RouteSync.Proofs.Message
import RouteSync.Proofs.Node.Exports

/-!
# Nodes that tell each other routes

A mesh is any number of nodes together with all packets that they ever sent (`Mesh`).  Who stands
behind which account of a node is fixed but arbitrary.  Packets stay on record, and each of them may
arrive at any time, again and again or never (`Act.deliver`), so they may be lost, repeated, delayed
and overtaken by others.  In between, the nodes make moves of their own in any order.  No message
comes in except from the record (`Act.IsHonest`), but answers to packets may be any.

A law of a mesh (`MeshLaw`) is a `RouteLaw` for each of its nodes under which the routes that a node
exports may be told, and those that it is told may be held.  An update on record brings only routes
that its sender exported (`Steady.exports_of_sends?`).  So a mesh that obeys a law goes on to obey
it (`Obeys.run`), given that its nodes have a codec that garbles nothing.
-/

namespace RouteSync

open Node (Move)

namespace Node

/-- The packet that goes out with a move. -/
def sends? (n : Node) : Move → Option Prepare
  | .begin now clock task =>
    match (n.begin now clock task).2 with
    | .waiting o => some o.packet
    | .done _ => none
  | _ => none

/-- Whether a move is one that a node makes in a mesh apart from taking messages in.  Its settings
and its codec stay, and nobody else puts routes into a receiver. -/
def Move.IsLocal : Move → Prop
  | .packet _ _ prepare =>
    prepare.destination ≠ controlDestination ∧ prepare.destination ≠ updateDestination
  | .codec _ | .configure _ => False
  | .track session => ∃ account link, session = newSession account link
  | .useSession _ use => ∀ session, (use session).receiver = session.receiver
  | _ => True

/-- A node that obeys a law, has its sessions in order and its log truthful, and uses the given
codec. -/
structure Steady (codec : Codec) (law : RouteLaw) (n : Node) : Prop where
  codec_eq : n.codec = codec
  orderly : n.Orderly
  coherent : n.outgoing.Coherent
  obeys : n.Obeys law

variable {codec : Codec} {law : RouteLaw} {n : Node}

theorem steady_fresh {settings : Settings} (h : law.settings settings) (directory : Directory)
    (codec : Codec) (filter : Option (Prefix → Route → Bool)) (id : TableId) (links : List Link) :
    (fresh settings directory codec filter id links).Steady codec law where
  codec_eq := rfl
  orderly := (tidy_fresh settings directory codec filter id links).toOrderly
  coherent := LoggedTable.coherent_empty id
  obeys := obeys_fresh h directory codec filter id links

theorem Move.IsLocal.codec_eq {m : Move} (hm : m.IsLocal) (n : Node) :
    (n.move m).codec = n.codec := by
  cases m with
  | direct directory => rfl
  | codec codec => exact hm.elim
  | filter filter => rfl
  | configure settings => exact hm.elim
  | track session =>
    show Node.codec (((n.track session).map Prod.fst).toOption.getD n) = n.codec
    cases htrack : n.track session with
    | error e => rfl
    | ok result =>
      obtain ⟨-, -, htracked⟩ := track_eq_ok htrack
      show result.1.codec = n.codec
      rw [htracked]
  | useSession s use => rfl
  | _ => exact move_codec n trivial fun _ h => by cases h

theorem Orderly.move_of_isLocal (h : n.Orderly) {m : Move} (hm : m.IsLocal) :
    (n.move m).Orderly := by
  refine h.move_of_keepsOrder ?_
  cases m with
  | track session =>
    obtain ⟨account, link, rfl⟩ := hm
    exact ⟨rfl, fun p r hr => by cases hr⟩
  | useSession s use =>
    intro session hsession
    rw [hm session]
    exact ⟨rfl, fun p r => h.peer_of_route? s session p r hsession⟩
  | _ => trivial

theorem Move.IsLocal.respects {m : Move} (hm : m.IsLocal) (law : RouteLaw) (n : Node) :
    m.Respects law n := by
  cases m with
  | configure settings => exact hm.elim
  | track session =>
    obtain ⟨account, link, rfl⟩ := hm
    rintro p i hi
    cases hi
  | useSession s use =>
    intro session hfills
    rw [hm session]
    exact hfills
  | packet now account packet => exact fun _ _ _ _ _ hupdate _ => absurd hupdate hm.2
  | _ => trivial

theorem Steady.move (h : n.Steady codec law) {m : Move} (hm : m.IsLocal) :
    (n.move m).Steady codec law where
  codec_eq := (hm.codec_eq n).trans h.codec_eq
  orderly := h.orderly.move_of_isLocal hm
  coherent := move_outgoing_coherent h.coherent m
  obeys := h.obeys.move (hm.respects law n)

/-- A packet may arrive if the law lets all routes through that come in with it. -/
theorem Steady.packet (h : n.Steady codec law) {now : Timestamp} {account : AccountId}
    {packet : Prepare}
    (hroutes : ∀ u, packet.destination = updateDestination →
      codec.decodeUpdate packet.data = .ok u → ∀ a ∈ u.newRoutes, n.settings.admits a = true →
      law.held (a.fromPeer account)) :
    (n.move (.packet now account packet)).Steady codec law where
  codec_eq := by
    rw [← h.codec_eq]
    exact move_codec n (m := .packet now account packet) trivial fun _ h => by cases h
  orderly := h.orderly.move trivial
  coherent := move_outgoing_coherent h.coherent _
  obeys := by
    refine h.obeys.move fun s session u hs hsession hupdate hu a ha => ?_
    obtain ⟨ha, hadmits⟩ := List.mem_filter.1 ha
    rw [h.orderly.peer_of_tracked (mem_tracked_of_trackedSession? hs) hsession]
    exact hroutes u hupdate (h.codec_eq ▸ hu) a ha hadmits

/-- Every route in an update of a sender is advertised by the table that it tells about. -/
theorem exists_of_mem_newRoutes {t : LoggedTable} (h : t.Coherent) (s : Sender)
    (settings : Settings) {a : AdvertisedRoute} (ha : a ∈ (s.updateRequest settings t).newRoutes) :
    ∃ p r, advertisedRoute? t p = some r ∧ r.advertised = a := by
  change a ∈ (s.pending t).2.filterMap fun u => u.route.map Route.advertised at ha
  rw [List.mem_filterMap] at ha
  obtain ⟨u, hu, hroute⟩ := ha
  rw [Option.map_eq_some_iff] at hroute
  obtain ⟨r, hr, rfl⟩ := hroute
  obtain ⟨hget, -⟩ := ((Chronicle.mem_pending h s).2 u).1 hu
  refine ⟨u.target, r, ?_, rfl⟩
  rw [advertisedRoute?, hget]
  exact hr

/-- What goes out with a move is a control request, or the update of some sender. -/
theorem sends?_cases {m : Move} {packet : Prepare} (h : n.sends? m = some packet) :
    packet.destination = controlDestination ∨
      ∃ sender : Sender, packet.destination = updateDestination ∧
        n.codec.encodeUpdate (sender.updateRequest n.settings n.outgoing) = .ok packet.data := by
  cases m with
  | begin now clock task =>
    simp only [sends?] at h
    split at h
    · rename_i o hwaiting
      cases h
      obtain ⟨session, -, -, ⟨-, hcontrol, -⟩ | ⟨-, -, hupdate, hencode, -⟩⟩ :=
        begin_eq_waiting hwaiting
      · exact .inl hcontrol
      · exact .inr ⟨session.sender, hupdate, hencode⟩
    · cases h
  | _ => cases h

/-- Updates that go out bring only routes that the law lets the node export. -/
theorem Steady.exports_of_sends? (h : n.Steady codec law) (hcodec : codec.IsFaithful) {m : Move}
    {packet : Prepare} (hsends : n.sends? m = some packet)
    (hupdate : packet.destination = updateDestination) {u : UpdateRequest}
    (hu : codec.decodeUpdate packet.data = .ok u) {a : AdvertisedRoute} (ha : a ∈ u.newRoutes) :
    ∃ p r, law.Exports p r ∧ r.advertised = a := by
  rcases sends?_cases hsends with hcontrol | ⟨sender, -, hencode⟩
  · rw [hupdate] at hcontrol
    exact absurd hcontrol (by decide)
  · rw [h.codec_eq] at hencode
    rw [hcodec _ _ u hencode hu] at ha
    obtain ⟨p, r, hr, hra⟩ := exists_of_mem_newRoutes h.coherent sender n.settings ha
    exact ⟨p, r, h.obeys.outgoing p r hr, hra⟩

end Node

/-! ### Meshes -/

/-- A packet together with the node that sent it. -/
structure Sent (ι : Type) where
  sender : ι
  packet : Prepare

/-- Nodes, and all packets that they sent. -/
structure Mesh (ι : Type) where
  nodes : ι → Node
  sent : List (Sent ι) := []

namespace Mesh

/-- One thing that happens in a mesh. -/
inductive Act (ι : Type) where
  /-- A node makes a move.  The packet that goes out with it is put on record. -/
  | move (i : ι) (m : Move)
  /-- The packet with the given number arrives at a node under an account, if its sender stands
  behind that account. -/
  | deliver (number : Nat) (i : ι) (account : AccountId) (now : Timestamp)

/-- Whether no messages come in but those on record, and settings and codecs stay. -/
def Act.IsHonest {ι : Type} : Act ι → Prop
  | .move _ m => m.IsLocal
  | .deliver .. => True

-- The node that stands behind each account of a node.
variable {ι : Type} [DecidableEq ι] (behind : ι → AccountId → Option ι)

/-- What an act does. -/
def act (w : Mesh ι) : Act ι → Mesh ι
  | .move i m =>
    { nodes := Function.update w.nodes i ((w.nodes i).move m)
      sent := w.sent ++ (((w.nodes i).sends? m).map (Sent.mk i)).toList }
  | .deliver number i account now =>
    match w.sent[number]? with
    | none => w
    | some s =>
      if behind i account = some s.sender then
        { w with
          nodes := Function.update w.nodes i ((w.nodes i).move (.packet now account s.packet)) }
      else w

/-- The mesh after several acts. -/
def run (w : Mesh ι) (acts : List (Act ι)) : Mesh ι :=
  acts.foldl (act behind) w

end Mesh

/-- A law for the routes of every node and a property of what every node tells, such that the
routes that a node exports may be told and those that it is told may be held. -/
structure MeshLaw {ι : Type} (behind : ι → AccountId → Option ι) where
  law : ι → RouteLaw
  told : ι → AdvertisedRoute → Prop
  tells : ∀ i p r, (law i).Exports p r → told i r.advertised
  hears : ∀ i account j, behind i account = some j → ∀ s, (law i).settings s →
    ∀ a, told j a → s.admits a = true → (law i).held (a.fromPeer account)

namespace Mesh

variable {ι : Type} {behind : ι → AccountId → Option ι}

/-- All nodes of a mesh obey their laws, and all routes on record may be told. -/
structure Obeys (codec : Codec) (law : MeshLaw behind) (w : Mesh ι) : Prop where
  steady : ∀ i, (w.nodes i).Steady codec (law.law i)
  told : ∀ s ∈ w.sent, s.packet.destination = updateDestination →
    ∀ u, codec.decodeUpdate s.packet.data = .ok u → ∀ a ∈ u.newRoutes, law.told s.sender a

variable [DecidableEq ι] {codec : Codec} {law : MeshLaw behind} {w : Mesh ι}

theorem Obeys.steady_update (h : w.Obeys codec law) {i : ι} {n : Node}
    (hn : n.Steady codec (law.law i)) (j : ι) :
    (Function.update w.nodes i n j).Steady codec (law.law j) := by
  by_cases hj : j = i
  · subst hj
    rw [Function.update_self]
    exact hn
  · rw [Function.update_of_ne hj]
    exact h.steady j

theorem Obeys.move (h : w.Obeys codec law) (hcodec : codec.IsFaithful) (i : ι) {m : Move}
    (hm : m.IsLocal) : (w.act behind (.move i m)).Obeys codec law where
  steady := h.steady_update ((h.steady i).move hm)
  told s hs hupdate u hu a ha := by
    rcases List.mem_append.1 hs with hold | hnew
    · exact h.told s hold hupdate u hu a ha
    · rw [Option.mem_toList, Option.map_eq_some_iff] at hnew
      obtain ⟨packet, hsends, rfl⟩ := hnew
      obtain ⟨p, r, hexports, rfl⟩ := (h.steady i).exports_of_sends? hcodec hsends hupdate hu ha
      exact law.tells i p r hexports

theorem Obeys.deliver (h : w.Obeys codec law) (number : Nat) (i : ι) (account : AccountId)
    (now : Timestamp) : (w.act behind (.deliver number i account now)).Obeys codec law := by
  simp only [Mesh.act]
  split
  · exact h
  · rename_i s hs
    split
    · rename_i hbehind
      have hsent : s ∈ w.sent := List.mem_of_getElem? hs
      refine ⟨h.steady_update ((h.steady i).packet fun u hupdate hu a ha hadmits => ?_), h.told⟩
      exact law.hears i account s.sender hbehind _ (h.steady i).obeys.settings a
        (h.told s hsent hupdate u hu a ha) hadmits
    · exact h

theorem Obeys.act (h : w.Obeys codec law) (hcodec : codec.IsFaithful) {a : Act ι}
    (ha : a.IsHonest) : (w.act behind a).Obeys codec law := by
  cases a with
  | move i m => exact h.move hcodec i ha
  | deliver number i account now => exact h.deliver number i account now

/-- Whatever happens in a mesh, it goes on to obey its law. -/
theorem Obeys.run (h : w.Obeys codec law) (hcodec : codec.IsFaithful) {acts : List (Act ι)}
    (hacts : ∀ a ∈ acts, a.IsHonest) : (w.run behind acts).Obeys codec law :=
  List.foldlRecOn acts _ h fun _ h a ha => h.act hcodec (hacts a ha)

end Mesh

end RouteSync
