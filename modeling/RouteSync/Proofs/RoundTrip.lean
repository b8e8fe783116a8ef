import RouteSync.Proofs.Message

/-!
# The JSON codec in both directions

A message can be written and read back if its numbers take no more than four bytes.  The converse
holds as well: whatever text a message is read from, in whatever order its fields stand there, its
numbers take no more than four bytes (`UpdateRequest.fits_of_ofTree`,
`ControlRequest.fits_of_ofTree`).  So writing it and reading that gives the same message, and
`Codec.json_roundTrip` says so for both kinds of messages.
-/

namespace RouteSync

open Json Json.Tree

/-! ### Opening a decoder -/

namespace Decoded

variable {α β : Type}

/-- Two decoders in a row give a value if the first one gives something from which the second one
makes that value. -/
theorem bind_eq_ok {x : Decoded α} {f : α → Decoded β} {b : β} :
    x >>= f = .ok b ↔ ∃ a, x = .ok a ∧ f a = .ok b := by
  cases x with
  | ok a => simp [bind, Except.bind]
  | error e => simp [bind, Except.bind]

theorem map_eq_ok {x : Decoded α} {f : α → β} {b : β} :
    x.map f = .ok b ↔ ∃ a, x = .ok a ∧ f a = b := by
  cases x with
  | ok a => simp [Except.map]
  | error e => simp [Except.map]

theorem required_eq_ok {name : String} {slot : Option α} {a : α} :
    required name slot = .ok a ↔ slot = some a := by
  cases slot with
  | some b => simp [required]
  | none => simp [required]

/-- What a slot of a draft holds has passed the decoder of its field. -/
theorem once_eq_ok {name : String} {slot slot' : Option α} {value : Unit → Decoded α}
    (h : once name slot value = .ok slot') : ∃ a, value () = .ok a ∧ slot' = some a := by
  unfold once at h
  split at h
  · cases h
  · obtain ⟨a, ha, rfl⟩ := map_eq_ok.1 h
    exact ⟨a, ha, rfl⟩

end Decoded

open Decoded

namespace Json.Tree

variable {α δ : Type}

theorem lt_of_asWord {t : Tree} {n : Nat} (h : asWord t = .ok n) : n < wordLimit := by
  unfold asWord at h
  split at h
  · split at h
    · cases h
      assumption
    · cases h
  · cases h

theorem next_eq_ok {value : Tree → Decoded α} {items rest : List Tree} {a : α}
    (h : next value items = .ok (a, rest)) : ∃ t, value t = .ok a := by
  cases items with
  | nil => cases h
  | cons t ts =>
    obtain ⟨b, hb, hpair⟩ := map_eq_ok.1 h
    cases hpair
    exact ⟨t, hb⟩

theorem lt_of_next {items rest : List Tree} {n : Nat} (h : next asWord items = .ok (n, rest)) :
    n < wordLimit := by
  obtain ⟨t, ht⟩ := next_eq_ok h
  exact lt_of_asWord ht

/-- What each field keeps of a draft holds of the draft that all fields have filled. -/
theorem fillFrom_induction {field : δ → String → Tree → Decoded δ} {motive : δ → Prop}
    (hfield : ∀ d name t d', motive d → field d name t = .ok d' → motive d') {d d' : δ}
    {fields : List (Option String × Tree)} (hd : motive d) (h : fillFrom field d fields = .ok d') :
    motive d' := by
  induction fields generalizing d with
  | nil =>
    cases h
    exact hd
  | cons f fields ih =>
    obtain ⟨key, t⟩ := f
    cases key with
    | none => cases h
    | some key =>
      obtain ⟨d₁, hd₁, hrest⟩ := bind_eq_ok.1 h
      exact ih (hfield d key t d₁ hd hd₁) hrest

end Json.Tree

/-- Whether a slot of a draft is empty or holds a number of four bytes. -/
def IsWord (slot : Option Nat) : Prop :=
  ∀ n, slot = some n → n < wordLimit

theorem isWord_none : IsWord none := by
  rintro n ⟨⟩

theorem isWord_of_once {name : String} {slot slot' : Option Nat} {t : Tree}
    (h : once name slot (fun _ => t.asWord) = .ok slot') : IsWord slot' := by
  obtain ⟨n, hn, rfl⟩ := once_eq_ok h
  rintro m ⟨⟩
  exact lt_of_asWord hn

/-! ### Updates -/

namespace UpdateRequest

/-- Whether the numbers of a draft take no more than four bytes. -/
def Draft.Fits (d : Draft) : Prop :=
  IsWord d.currentEpoch ∧ IsWord d.fromEpoch ∧ IsWord d.toEpoch ∧ IsWord d.holdDownTime

theorem Draft.fits_of_field {d d' : Draft} {name : String} {t : Tree} (h : d.Fits)
    (hfield : d.field name t = .ok d') : d'.Fits := by
  obtain ⟨hcurrent, hfrom, hto, hhold⟩ := h
  unfold field at hfield
  split at hfield <;> obtain ⟨slot, hslot, ⟨⟩⟩ := bind_eq_ok.1 hfield
  case h_1 | h_6 | h_7 | h_8 | h_9 => exact ⟨hcurrent, hfrom, hto, hhold⟩
  case h_2 => exact ⟨isWord_of_once hslot, hfrom, hto, hhold⟩
  case h_3 => exact ⟨hcurrent, isWord_of_once hslot, hto, hhold⟩
  case h_4 => exact ⟨hcurrent, hfrom, isWord_of_once hslot, hhold⟩
  case h_5 => exact ⟨hcurrent, hfrom, hto, isWord_of_once hslot⟩

theorem fits_of_finish {d : Draft} {u : UpdateRequest} (h : d.Fits) (hu : d.finish = .ok u) :
    u.Fits := by
  obtain ⟨hcurrent, hfrom, hto, hhold⟩ := h
  simp only [Draft.finish, bind_eq_ok, required_eq_ok] at hu
  obtain ⟨id, -, current, hcurrent', start, hfrom', stop, hto', hold, hhold', speaker, -, routes, -,
    withdrawn, -, ⟨⟩⟩ := hu
  exact ⟨hcurrent _ hcurrent', hfrom _ hfrom', hto _ hto', hhold _ hhold'⟩

/-- The numbers of an update that was read take no more than four bytes. -/
theorem fits_of_ofTree {t : Tree} {u : UpdateRequest} (h : ofTree t = .ok u) : u.Fits := by
  cases t with
  | object fields =>
    obtain ⟨d, hd, hfinish⟩ := bind_eq_ok.1 h
    have hempty : ({} : Draft).Fits := ⟨isWord_none, isWord_none, isWord_none, isWord_none⟩
    have hfits := fillFrom_induction (fun _ _ _ _ => Draft.fits_of_field) hempty hd
    exact fits_of_finish hfits hfinish
  | array items =>
    simp only [ofTree, bind_eq_ok, Prod.exists] at h
    obtain ⟨id, items₁, -, current, items₂, hcurrent, start, items₃, hfrom, stop, items₄, hto, hold,
      items₅, hhold, speaker, items₆, -, routes, items₇, -, withdrawn, items₈, -, -, -, ⟨⟩⟩ := h
    exact ⟨lt_of_next hcurrent, lt_of_next hfrom, lt_of_next hto, lt_of_next hhold⟩
  | null | bool | number | text | fault => cases h

/-- The addresses of an update: its speaker and whoever stands in one of its paths. -/
def addresses (u : UpdateRequest) : List Address :=
  u.speaker :: u.newRoutes.flatMap AdvertisedRoute.path

/-- The prefixes of an update: those of its routes and the withdrawn ones. -/
def prefixes (u : UpdateRequest) : List Prefix :=
  u.newRoutes.map AdvertisedRoute.target ++ u.withdrawn

end UpdateRequest

/-! ### Control requests -/

namespace ControlRequest

theorem Draft.isWord_of_field {d d' : Draft} {name : String} {t : Tree} (h : IsWord d.epoch)
    (hfield : d.field name t = .ok d') : IsWord d'.epoch := by
  unfold field at hfield
  split at hfield <;> obtain ⟨slot, hslot, ⟨⟩⟩ := bind_eq_ok.1 hfield
  case h_1 | h_2 | h_4 | h_5 => exact h
  case h_3 => exact isWord_of_once hslot

/-- The number of a control request that was read takes no more than four bytes. -/
theorem fits_of_ofTree {t : Tree} {r : ControlRequest} (h : ofTree t = .ok r) : r.Fits := by
  cases t with
  | object fields =>
    obtain ⟨d, hd, hfinish⟩ := bind_eq_ok.1 h
    have hword := fillFrom_induction (motive := fun d => IsWord d.epoch)
      (fun _ _ _ _ => Draft.isWord_of_field) isWord_none hd
    simp only [Draft.finish, bind_eq_ok, required_eq_ok] at hfinish
    obtain ⟨mode, -, epoch, hepoch, ⟨⟩⟩ := hfinish
    exact hword _ hepoch
  | array items =>
    simp only [ofTree, bind_eq_ok, Prod.exists] at h
    obtain ⟨mode, items₁, -, id, items₂, -, epoch, items₃, hepoch, features, items₄, -, -, -,
      ⟨⟩⟩ := h
    exact lt_of_next hepoch
  | null | bool | number | text | fault => cases h

end ControlRequest

namespace Codec

theorem exists_ofTree_of_decode {α : Type} {value : Tree → Decoded α} {bs : Bytes} {a : α}
    (h : decode value bs = .ok a) : ∃ t, value t = .ok a := by
  unfold decode at h
  generalize read bs = given at h
  obtain ⟨t, atEnd⟩ := given
  obtain ⟨b, hb, hend⟩ := bind_eq_ok.1 h
  cases atEnd with
  | false => cases hend
  | true =>
    cases hend
    exact ⟨t, hb⟩

theorem fits_of_json_decodeUpdate {data : Bytes} {u : UpdateRequest}
    (h : json.decodeUpdate data = .ok u) : u.Fits := by
  obtain ⟨t, ht⟩ := exists_ofTree_of_decode h
  exact UpdateRequest.fits_of_ofTree ht

theorem fits_of_json_decodeControl {data : Bytes} {r : ControlRequest}
    (h : json.decodeControl data = .ok r) : r.Fits := by
  obtain ⟨t, ht⟩ := exists_ofTree_of_decode h
  exact ControlRequest.fits_of_ofTree ht

theorem json_decodeUpdate_of_fits {u : UpdateRequest} (h : u.Fits) :
    ∃ data, json.encodeUpdate u = .ok data ∧ json.decodeUpdate data = .ok u :=
  ⟨u.toTree.write, rfl, by rw [json_decodeUpdate, if_pos h]⟩

theorem json_decodeControl_of_fits {r : ControlRequest} (h : r.Fits) :
    ∃ data, json.encodeControl r = .ok data ∧ json.decodeControl data = .ok r :=
  ⟨r.toTree.write, rfl, by rw [json_decodeControl, if_pos h]⟩

/-- Every message whose numbers take no more than four bytes can be written and is read back as it
was.  Every text that is read as a message gives one whose addresses and prefixes are read back from
their texts, and which is read back after it was written again. -/
theorem json_roundTrip :
    (∀ u : UpdateRequest, u.Fits →
      ∃ data, json.encodeUpdate u = .ok data ∧ json.decodeUpdate data = .ok u) ∧
    (∀ r : ControlRequest, r.Fits →
      ∃ data, json.encodeControl r = .ok data ∧ json.decodeControl data = .ok r) ∧
    (∀ data u, json.decodeUpdate data = .ok u →
      (∀ a ∈ u.addresses, Address.parse a.text = .ok a) ∧
      (∀ p ∈ u.prefixes, Prefix.parse p.text = .ok p) ∧
      ∃ data', json.encodeUpdate u = .ok data' ∧ json.decodeUpdate data' = .ok u) ∧
    (∀ data r, json.decodeControl data = .ok r →
      ∃ data', json.encodeControl r = .ok data' ∧ json.decodeControl data' = .ok r) := by
  refine ⟨fun u => json_decodeUpdate_of_fits, fun r => json_decodeControl_of_fits,
    fun data u h => ⟨fun a _ => a.parse_text, fun p _ => p.parse_text, ?_⟩, fun data r h => ?_⟩
  · exact json_decodeUpdate_of_fits (fits_of_json_decodeUpdate h)
  · exact json_decodeControl_of_fits (fits_of_json_decodeControl h)

/-- An update as another program may write it: an array with blanks, plain digits for the table id
and capital ones for the proof. -/
def foreignUpdate : Bytes :=
  Text.utf8Bytes ("[\"11111111111111111111111111111111\", 2, 0, 1, 45000, \"g.writer\", " ++
    "[[\"g.there\", [\"g.writer\"], \"" ++ String.ofList (List.replicate 64 'A') ++
    "\"]], [\"g.gone\"]]")

/-- The update that is meant by it. -/
def meantUpdate : UpdateRequest where
  tableId := ⟨List.replicate 16 0x11, rfl⟩
  currentEpoch := 2
  fromEpoch := 0
  toEpoch := 1
  holdDownTime := 45000
  speaker := ⟨"g.writer".toList, by decide⟩
  newRoutes :=
    [⟨⟨"g.there".toList, by decide⟩, [⟨"g.writer".toList, by decide⟩], Bytes32.replicate 0xaa⟩]
  withdrawn := [⟨"g.gone".toList, by decide⟩]

/-- A control request of that kind, which leaves the features out. -/
def foreignControl : Bytes :=
  Text.utf8Bytes "[\"sync\", null, 7]"

theorem json_roundTrip_foreign :
    meantUpdate.Fits ∧ json.decodeUpdate foreignUpdate = .ok meantUpdate ∧
    (∃ data, json.encodeUpdate meantUpdate = .ok data ∧
      json.decodeUpdate data = .ok meantUpdate) ∧
    json.decodeControl foreignControl = .ok ⟨.sync, none, 7, []⟩ ∧
    (∃ data, json.encodeControl ⟨.sync, none, 7, []⟩ = .ok data ∧
      json.decodeControl data = .ok ⟨.sync, none, 7, []⟩) ∧
    ∃ data, json.encodeControl ⟨.idle, none, 0, ["\"ß\"\n"]⟩ = .ok data ∧
      json.decodeControl data = .ok ⟨.idle, none, 0, ["\"ß\"\n"]⟩ := by
  have hupdate : json.decodeUpdate foreignUpdate = .ok meantUpdate := by decide +kernel
  have hcontrol : json.decodeControl foreignControl = .ok ⟨.sync, none, 7, []⟩ := by decide +kernel
  exact ⟨by decide, hupdate, (json_roundTrip.2.2.1 foreignUpdate meantUpdate hupdate).2.2, hcontrol,
    json_roundTrip.2.2.2 foreignControl _ hcontrol, json_roundTrip.2.1 _ (by decide)⟩

end Codec

end RouteSync
