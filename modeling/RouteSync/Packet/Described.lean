import RouteSync.Packet.Basic

/-!
# How packets read in messages

One line for each kind of packet: its fields by name, texts quoted, data only by its length.
-/

namespace RouteSync

/-- A value wrapped in the name of its kind, as in `Address("g.a")`. -/
def wrapped (kind : String) (text : String) : String :=
  kind ++ "(" ++ Text.quote text ++ ")"

def Address.described (a : Address) : String :=
  wrapped "Address" a.text

def Prefix.described (p : Prefix) : String :=
  wrapped "AddressPrefix" p.text

def ErrorCode.described (c : ErrorCode) : String :=
  wrapped "ErrorCode" c.text

/-- A name and its fields between braces. -/
def record (name : String) (fields : List (String × String)) : String :=
  name ++ " \x7b " ++ ", ".intercalate (fields.map fun f => f.1 ++ ": " ++ f.2) ++ " \x7d"

/-- A value that may be absent. -/
def optional (shown : Option String) : String :=
  match shown with
  | none => "None"
  | some text => "Some(" ++ text ++ ")"

def Prepare.described (p : Prepare) : String :=
  record "Prepare"
    [("destination", p.destination.described),
      ("amount", toString p.amount.toNat),
      ("expires_at", Text.quote p.expiresAt.text),
      ("execution_condition", Text.quote p.condition.hex),
      ("data_length", toString p.data.length)]

def Fulfill.described (f : Fulfill) : String :=
  record "Fulfill"
    [("fulfillment", Text.quote f.fulfillment.hex),
      ("data_length", toString f.data.length)]

/-- A message that is no text is only named as such. -/
def Reject.described (r : Reject) : String :=
  record "Reject"
    [("code", r.code.described),
      ("message", Text.quote ((Text.ofUtf8? r.message).getD "<not utf8>")),
      ("triggered_by", optional (r.triggeredBy.map Address.described)),
      ("data_length", toString r.data.length)]

end RouteSync
