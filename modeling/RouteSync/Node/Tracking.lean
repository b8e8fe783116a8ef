import RouteSync.Node.Task

/-!
# Accounts that come and go

The node subscribes to the links of its accounts.  When a link comes up, the account is tracked: a
session is opened and the peer is asked for its routes.  When it goes down, the session is closed
and everything that the peer had advertised is withdrawn.
-/

namespace RouteSync.Node

/-! ### Subscriptions -/

/-- Subscribe to the link of an account.  A second subscription has no effect. -/
def register (n : Node) (account : AccountId) : Node × Except RoutingError Unit :=
  if n.subscriptions.any (·.account == account) then (n, .ok ())
  else if !n.directory.knows account then (n, .error (.accountNotFound account))
  else
    match n.directory.link? account with
    | none => (n, .error (.linkNotFound account))
    | some link =>
      let listener : ListenerId := ⟨n.nextListener⟩
      let n := n.modifyLink link (·.addListener listener)
      ({ n with
          subscriptions := n.subscriptions ++ [⟨account, link, listener⟩]
          nextListener := n.nextListener + 1 }, .ok ())

/-- End the subscription to the link that the account had when it was registered. -/
def unsubscribe (n : Node) (account : AccountId) : Node :=
  match n.subscriptions.find? (·.account == account) with
  | none => n
  | some s =>
    let n := n.modifyLink s.link (·.removeListener s.listener)
    { n with subscriptions := n.subscriptions.filter (·.account != account) }

/-- Tell the listeners of a link what happened; each of them puts it into its queue. -/
def emit (n : Node) (link : LinkId) (event : LinkEvent) : Node :=
  match n.link? link with
  | none => n
  | some l => { n with events := n.events ++ l.listeners.map fun _ => event }

/-! ### Sessions -/

/-- The session for an account whose link came up.  If the account is not to be sent routes, its
sender is stopped from the start. -/
def newSession (account : Account) (link : LinkId) : Session where
  account := account
  link := link
  sender := { peer := account.id, broadcasting := account.sendsRoutes }
  receiver := { peer := account.id }

/-- Track the account of a session. -/
def track (n : Node) (session : Session) : Except RoutingError (Node × SessionId) :=
  match n.trackedSession? session.account.id with
  | some _ => .error (.accountAlreadyTracked session.account.id)
  | none =>
    let s : SessionId := ⟨n.sessions.length⟩
    .ok ({ n with
            sessions := n.sessions ++ [session]
            tracked := n.tracked ++ [(session.account.id, s)] }, s)

/-- Close the session of an account and choose again for every prefix that it had advertised, up to
the first error. -/
def untrack (n : Node) (account : AccountId) : Node × Except RoutingError Unit :=
  match n.trackedSession? account with
  | none => (n, .ok ())
  | some s =>
    let n := { n with tracked := n.tracked.filter (·.1 != account) }
    let n := n.modifySession s fun session => { session with sender := session.sender.stop }
    match n.session? s with
    | none => (n, .ok ())
    | some session =>
      match n.recomputeAll session.receiver.routes.keys with
      | (n, .error e) => (n, .error e)
      | (n, .ok ()) =>
        if session.account.isChild then
          match n.childPrefix account with
          | .ok p => n.recomputeAll [p]
          | .error e => (n, .error e)
        else (n, .ok ())

/-- End the subscription for an account and its session. -/
def unregister (n : Node) (account : AccountId) : Node × Except RoutingError Unit :=
  (n.unsubscribe account).untrack account

/-- Make the node's own routes and, if that went well, subscribe to the links of all accounts as far
as possible. -/
def start (n : Node) : Node × Except RoutingError Unit :=
  match n.reload with
  | (n, .error e) => (n, .error e)
  | (n, .ok ()) =>
    (n.directory.accounts.foldl (fun n account => (n.register account.id).1) n, .ok ())

/-- Unregister every account. -/
def shutdown (n : Node) : Node :=
  (n.subscriptions.map (·.account)).foldl (fun n account => (n.unregister account).1) n

/-! ### Events -/

/-- A link came up.  An account that is tracked is only asked for its routes again. -/
def connect (n : Node) (account : AccountId) : Except RoutingError (Node × List Task) :=
  match n.directory.link? account with
  | none => .error (.linkNotFound account)
  | some link =>
    if !(n.link? link).any (·.connected) then .ok (n, [])
    else
      match n.trackedSession? account with
      | some s =>
        let receives := (n.session? s).any (·.account.receivesRoutes)
        .ok (n, if receives then [.requestRoutes s] else [])
      | none =>
        match n.directory.account? account with
        | none => .error (.accountNotFound account)
        | some a =>
          if !a.sendsRoutes && !a.receivesRoutes then .ok (n, [])
          else do
            let (n, s) ← n.track (newSession a link)
            return (n, (if a.receivesRoutes then [.requestRoutes s] else []) ++ [.finishConnect s])

/-- What a node does about a link event.  Errors end the work on the event. -/
def handleEvent (n : Node) (event : LinkEvent) : Node × List Task :=
  match event.change with
  | .connected =>
    match n.connect event.account with
    | .ok (n, tasks) => (n, tasks)
    | .error _ => (n, [])
  | .disconnected => ((n.untrack event.account).1, [])
  | .failed _ => (n, [])

/-- Begin to look at events.  Only the first call has an effect, and says so. -/
def listen (n : Node) : Node × Bool :=
  if n.listening then (n, false) else ({ n with listening := true }, true)

/-- The next event to look at, if somebody does. -/
def nextEvent (n : Node) : Node × Option LinkEvent :=
  if n.listening then
    match n.events with
    | [] => (n, none)
    | event :: rest => ({ n with events := rest }, some event)
  else (n, none)

/-- The work on routes that have lapsed: forget them and ask for fresh ones. -/
def purge (n : Node) (now : Timestamp) : List Task :=
  (n.tracked.filter fun t => (n.session? t.2).any (·.receiver.isExpired now)).flatMap fun t =>
    [.expire t.2, .requestRoutes t.2]

end RouteSync.Node
