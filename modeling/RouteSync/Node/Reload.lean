import RouteSync.Node.Selection

/-!
# The routes that a node makes itself

These are the route to its own address, the default route for the global prefix and one route for
each child.  They are made anew from the settings and the directory on every reload.
-/

namespace RouteSync.Node

/-- The account that gets what no better route is known for. -/
def defaultAccount (n : Node) : Except RoutingError AccountId :=
  if n.settings.useParentForDefaultRoute then
    match n.directory.primaryParent? with
    | some parent => .ok parent.id
    | none => .error .missingParentAccount
  else
    match n.settings.defaultRoute with
    | some account =>
      if n.directory.knows account then .ok account
      else .error (.missingDefaultRouteAccount (some account))
    | none => .error (.missingDefaultRouteAccount none)

/-- The prefix of a child: the node's address with the child's id at the end. -/
def childPrefix (n : Node) (account : AccountId) : Except RoutingError Prefix :=
  match n.settings.operator.withSuffix account.chars with
  | .ok address => .ok address.toPrefix
  | .error e => .error (.invalidChildAddress e)

/-- The route to a child. -/
def childRoute (n : Node) (child : Account) : Except RoutingError Route := do
  return Route.originated (← n.childPrefix child.id) child.id n.settings.routingSecret

/-- The routes that the node makes itself.  Of two for one prefix the later one counts. -/
def ownRoutes (n : Node) : Except RoutingError (List Route) := do
  let defaultAccount ← n.defaultAccount
  let children ← n.directory.children.mapM n.childRoute
  return Route.originated n.settings.operatorPrefix AccountId.self n.settings.routingSecret ::
    Route.originated n.settings.globalPrefix defaultAccount n.settings.routingSecret :: children

/-- Make the node's own routes anew and choose again for every prefix that they or the static routes
touch or touched. -/
def reload (n : Node) : Node × Except RoutingError Unit :=
  match n.ownRoutes with
  | .error e => (n, .error e)
  | .ok routes =>
    let touched := routes.map (·.target) ++ n.originated.keys ++
      n.settings.staticRoutes.map (·.target)
    { n with originated := routes.foldl RouteTable.insert RouteTable.empty }.recomputeAll
      touched.eraseDups

end RouteSync.Node
