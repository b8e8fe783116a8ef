import RouteSync.Message.Envelope
import RouteSync.Proofs.Json

/-!
# Messages are read as they were written

An update that was written as JSON is read as the same update (`Codec.json_decodeUpdate`), unless
one of its numbers takes more than four bytes.  Such an update can be written but not read.  The
same holds of control requests and their one number (`Codec.json_decodeControl`).

So the JSON codec is faithful (`Codec.json_isFaithful`).  Whoever takes in an update that another
node wrote with a faithful codec takes in the very update that this node sent.
-/

namespace RouteSync

open Json

namespace Json.Tree

variable {α : Type}

theorem asAddress_text (a : Address) : asAddress (.text (some a.text)) = .ok a := by
  show Decoded.ofRead .address (Address.parse a.text) = _
  rw [Address.parse_text]
  rfl

theorem asPrefix_text (p : Prefix) : asPrefix (.text (some p.text)) = .ok p := by
  show Decoded.ofRead .address (Prefix.parse p.text) = _
  rw [Prefix.parse_text]
  rfl

theorem asBytes32_text (v : Bytes32) : asBytes32 (.text (some v.hex)) = .ok v := by
  show Decoded.ofRead .hex (Bytes32.parse v.hex) = _
  rw [Bytes32.parse_hex]
  rfl

theorem asTableId_text (id : TableId) : asTableId (.text (some id.text)) = .ok id := by
  have htext : asText (.text (some id.text)) = .ok id.text := rfl
  simp only [asTableId, htext, bind, Except.bind, TableId.parse?_text]
  rfl

theorem asWord_ofNat (n : Nat) :
    asWord (.number (.ofNat n)) = if n < wordLimit then .ok n else .error .malformed := rfl

theorem asVariant_name (m : Mode) : asVariant Mode.words (.text (some m.name)) = .ok m := by
  cases m <;> rfl

/-- A list is read item by item. -/
theorem asList_map {value : Tree → Decoded α} {f : α → Tree} (h : ∀ a, value (f a) = .ok a)
    (as : List α) : asList value (.array (as.map f)) = .ok as := by
  have hvalue : value ∘ f = pure := funext h
  show (as.map f).mapM value = .ok as
  rw [List.mapM_map, hvalue]
  exact List.mapM_pure.trans (congrArg pure (List.map_id as))

end Json.Tree

open Json.Tree

namespace ControlRequest

/-- Whether the number of a control request takes no more than four bytes. -/
def Fits (r : ControlRequest) : Prop :=
  r.epoch < wordLimit

instance (r : ControlRequest) : Decidable r.Fits :=
  inferInstanceAs (Decidable (_ < _))

/-- The table id is written as its text, or as `null` if there is none. -/
def idTree : Option TableId → Tree
  | some id => .text (some id.text)
  | none => .null

theorem asOptional_idTree (id : Option TableId) : asOptional asTableId (idTree id) = .ok id := by
  cases id with
  | none => rfl
  | some id =>
    show (asTableId (.text (some id.text))).map some = _
    rw [asTableId_text]
    rfl

theorem toTree_eq (r : ControlRequest) :
    r.toTree = .fields
      [("mode", .text (some r.mode.name)), ("last_known_routing_table_id", idTree r.tableId),
        ("last_known_epoch", .number (.ofNat r.epoch)),
        ("features", .array (r.features.map fun f => .text (some f)))] := by
  unfold toTree idTree
  cases r.tableId <;> rfl

theorem ofTree_toTree (r : ControlRequest) :
    ofTree r.toTree = if r.Fits then .ok r else .error .malformed := by
  have hfeatures : asList asText (.array (r.features.map fun f => .text (some f))) =
      .ok r.features := asList_map (f := fun f => .text (some f)) (fun _ => rfl) r.features
  rw [toTree_eq]
  simp only [Json.Tree.fields, List.map_cons, List.map_nil, ofTree, fillFrom, Draft.field,
    Decoded.once, asVariant_name, asOptional_idTree, asWord_ofNat, hfeatures]
  by_cases hepoch : r.epoch < wordLimit
  · have hfits : r.Fits := hepoch
    simp only [hepoch, hfits, if_true]
    rfl
  · have hfits : ¬r.Fits := hepoch
    simp only [hepoch, hfits, if_false]
    rfl

theorem toTree_isPlain (r : ControlRequest) : r.toTree.IsPlain := by
  have hid : (idTree r.tableId).IsPlain := by
    cases r.tableId with
    | none => trivial
    | some id => trivial
  have hfeatures : ArePlain (r.features.map fun f => .text (some f)) :=
    arePlain_iff.2 fun t ht => by
      obtain ⟨f, -, rfl⟩ := List.mem_map.1 ht
      trivial
  rw [toTree_eq]
  exact ⟨rfl, trivial, rfl, hid, rfl, rfl, rfl, hfeatures, trivial⟩

end ControlRequest

theorem AdvertisedRoute.ofTree_toTree (r : AdvertisedRoute) : ofTree r.toTree = .ok r := by
  have hpath : asList asAddress (.array (r.path.map fun a => .text (some a.text))) = .ok r.path :=
    asList_map asAddress_text r.path
  simp only [toTree, Json.Tree.fields, List.map_cons, List.map_nil, ofTree, fillFrom, Draft.field,
    Decoded.once, asPrefix_text, hpath, asBytes32_text]
  rfl

theorem AdvertisedRoute.toTree_isPlain (r : AdvertisedRoute) : r.toTree.IsPlain := by
  have hpath : ArePlain (r.path.map fun a => .text (some a.text)) :=
    arePlain_iff.2 fun t ht => by
      obtain ⟨a, -, rfl⟩ := List.mem_map.1 ht
      trivial
  exact ⟨rfl, trivial, rfl, hpath, rfl, trivial, trivial⟩

namespace UpdateRequest

/-- Whether the numbers of an update take no more than four bytes. -/
def Fits (u : UpdateRequest) : Prop :=
  u.currentEpoch < wordLimit ∧ u.fromEpoch < wordLimit ∧ u.toEpoch < wordLimit ∧
    u.holdDownTime < wordLimit

instance (u : UpdateRequest) : Decidable u.Fits :=
  inferInstanceAs (Decidable (_ ∧ _))

theorem ofTree_toTree (u : UpdateRequest) :
    ofTree u.toTree = if u.Fits then .ok u else .error .malformed := by
  have hroutes : asList AdvertisedRoute.ofTree (.array (u.newRoutes.map AdvertisedRoute.toTree)) =
      .ok u.newRoutes := asList_map AdvertisedRoute.ofTree_toTree u.newRoutes
  have hwithdrawn : asList asPrefix (.array (u.withdrawn.map fun p => .text (some p.text))) =
      .ok u.withdrawn := asList_map asPrefix_text u.withdrawn
  simp only [toTree, Json.Tree.fields, List.map_cons, List.map_nil, ofTree, fillFrom, Draft.field,
    Decoded.once, asTableId_text, asWord_ofNat, asAddress_text, hroutes, hwithdrawn]
  -- The numbers are read one after the other, and the first that is too large ends the reading.
  by_cases hcurrent : u.currentEpoch < wordLimit
  case neg =>
    have hfits : ¬u.Fits := fun h => hcurrent h.1
    simp only [hcurrent, hfits, if_false]
    rfl
  by_cases hfrom : u.fromEpoch < wordLimit
  case neg =>
    have hfits : ¬u.Fits := fun h => hfrom h.2.1
    simp only [hcurrent, hfrom, hfits, if_true, if_false]
    rfl
  by_cases hto : u.toEpoch < wordLimit
  case neg =>
    have hfits : ¬u.Fits := fun h => hto h.2.2.1
    simp only [hcurrent, hfrom, hto, hfits, if_true, if_false]
    rfl
  by_cases hhold : u.holdDownTime < wordLimit
  case neg =>
    have hfits : ¬u.Fits := fun h => hhold h.2.2.2
    simp only [hcurrent, hfrom, hto, hhold, hfits, if_true, if_false]
    rfl
  have hfits : u.Fits := ⟨hcurrent, hfrom, hto, hhold⟩
  simp only [hcurrent, hfrom, hto, hhold, hfits, if_true]
  rfl

theorem toTree_isPlain (u : UpdateRequest) : u.toTree.IsPlain := by
  have hroutes : ArePlain (u.newRoutes.map AdvertisedRoute.toTree) :=
    arePlain_iff.2 fun t ht => by
      obtain ⟨r, -, rfl⟩ := List.mem_map.1 ht
      exact r.toTree_isPlain
  have hwithdrawn : ArePlain (u.withdrawn.map fun p => .text (some p.text)) :=
    arePlain_iff.2 fun t ht => by
      obtain ⟨p, -, rfl⟩ := List.mem_map.1 ht
      trivial
  exact ⟨rfl, trivial, rfl, rfl, rfl, rfl, rfl, rfl, rfl, rfl, rfl, trivial, rfl, hroutes, rfl,
    hwithdrawn, trivial⟩

end UpdateRequest

namespace Codec

/-- An update whose numbers fit is read back from its JSON text; any other is refused. -/
theorem json_decodeUpdate (u : UpdateRequest) :
    json.decodeUpdate u.toTree.write = if u.Fits then .ok u else .error .malformed := by
  show decode UpdateRequest.ofTree u.toTree.write = _
  simp only [decode, read_write u.toTree_isPlain, u.ofTree_toTree]
  split <;> rfl

/-- A control request whose number fits is read back from its JSON text; any other is refused. -/
theorem json_decodeControl (r : ControlRequest) :
    json.decodeControl r.toTree.write = if r.Fits then .ok r else .error .malformed := by
  show decode ControlRequest.ofTree r.toTree.write = _
  simp only [decode, read_write r.toTree_isPlain, r.ofTree_toTree]
  split <;> rfl

/-- A codec that garbles no update: nothing but an update itself is read from what was written for
it. -/
def IsFaithful (c : Codec) : Prop :=
  ∀ u data u', c.encodeUpdate u = .ok data → c.decodeUpdate data = .ok u' → u' = u

theorem json_isFaithful : json.IsFaithful := by
  intro u data u' hencode hdecode
  cases hencode
  rw [json_decodeUpdate] at hdecode
  split at hdecode
  · cases hdecode
    rfl
  · cases hdecode

end Codec

end RouteSync
