import ModbusLogger.Api.Router.Middlewares

/-!
# All routes and who gets to them (`api/init_axum.rs`, `api/router`, `api/web_sockets/live_socket.rs`)

The routers with their layers, in the order in which the source adds them. A handler stands for what it
does, and only the one of the WebSocket looks at the token itself.
-/

namespace ModbusLogger.Api

open Routing Auth

/-! ## Handlers -/

inductive NodeHandler where
  | getNodes
  | getNodeByIp
  | createNode
  | updateNode
  | deleteNode
  | getNodeById
  deriving DecidableEq, Repr

inductive DeviceHandler where
  | getDevices
  | getDevicesByParentId
  | createDevices
  | updateDevice
  | deleteDevice
  | getDevice
  deriving DecidableEq, Repr

inductive ValueHandler where
  | getAllValues
  | createValue
  | getLoggingValues
  | getByParentId
  | updateValue
  | deleteValue
  deriving DecidableEq, Repr

inductive UserHandler where
  | createUser
  | getAllUsers
  | getUserById
  | updateUser
  | deleteUser
  deriving DecidableEq, Repr

inductive GroupHandler where
  | getUserGroups
  | createGroup
  | updateGroup
  | deleteGroup
  | getGroupById
  | getAllGroups
  | uiGetByGroupId
  | me
  deriving DecidableEq, Repr

inductive SubgroupHandler where
  | createSubGroup
  | updateSubGroup
  | deleteSubGroup
  | getAllSubGroups
  | getSubGroupById
  | getSubGroupsByGroupId
  | uiGetSubgroupsAssign
  deriving DecidableEq, Repr

inductive AssignHandler where
  | createAssignGroup
  | createAssignValues
  | cleanGroupAssignments
  | cleanValuesAssignments
  deriving DecidableEq, Repr

inductive AuthHandler where
  | login
  | logout
  | refreshToken
  | me
  | bit
  deriving DecidableEq, Repr

inductive RootHandler where
  | serveHtml
  | serveCss
  | serveJs
  | serveSchemas
  deriving DecidableEq, Repr

inductive Handler where
  | node (h : NodeHandler)
  | device (h : DeviceHandler)
  | value (h : ValueHandler)
  | getMeasures
  | user (h : UserHandler)
  | group (h : GroupHandler)
  | subgroup (h : SubgroupHandler)
  | assign (h : AssignHandler)
  | auth (h : AuthHandler)
  | root (h : RootHandler)
  | wsHandler
  deriving DecidableEq, Repr

namespace Handler

/-- The handlers of the routes under `auth_middleware`. -/
def isProtected : Handler → Bool
  | auth _ | root _ | wsHandler => false
  | _ => true

/-- The handlers that change nodes, devices, values, users, groups, subgroups or assignments. -/
def changes : Handler → Bool
  | node h => h ∈ [.createNode, .updateNode, .deleteNode]
  | device h => h ∈ [.createDevices, .updateDevice, .deleteDevice]
  | value h => h ∈ [.createValue, .updateValue, .deleteValue]
  | user h => h ∈ [.createUser, .updateUser, .deleteUser]
  | group h => h ∈ [.createGroup, .updateGroup, .deleteGroup]
  | subgroup h => h ∈ [.createSubGroup, .updateSubGroup, .deleteSubGroup]
  | assign _ => true
  | _ => false

end Handler

/-! ## Routers -/

def nodeRouter : Router Layer Handler :=
  Router.new
    |>.route [.lit "nodes", .lit "get_all"] .get (.node .getNodes)
    |>.route [.lit "nodes", .lit "get_node_by_ip", .param] .get (.node .getNodeByIp)
    |>.route [.lit "nodes", .lit "create"] .post (.node .createNode)
    |>.route [.lit "nodes", .lit "update", .param] .put (.node .updateNode)
    |>.route [.lit "nodes", .lit "delete", .param] .delete (.node .deleteNode)
    |>.routeLayer .admin
    |>.route [.lit "nodes", .param] .get (.node .getNodeById)

def devicesRouter : Router Layer Handler :=
  Router.new
    |>.route [.lit "devices", .lit "get_all"] .get (.device .getDevices)
    |>.route [.lit "devices", .lit "get_by_parent_id", .param] .get (.device .getDevicesByParentId)
    |>.route [.lit "devices", .lit "create"] .post (.device .createDevices)
    |>.route [.lit "devices", .lit "update", .param] .put (.device .updateDevice)
    |>.route [.lit "devices", .lit "delete", .param] .delete (.device .deleteDevice)
    |>.routeLayer .admin
    |>.route [.lit "devices", .lit "get_device", .param] .get (.device .getDevice)

def valuesRouter : Router Layer Handler :=
  Router.new
    |>.route [.lit "values", .lit "get_all"] .get (.value .getAllValues)
    |>.route [.lit "values", .lit "create"] .post (.value .createValue)
    |>.route [.lit "values", .lit "get_logging_only"] .get (.value .getLoggingValues)
    |>.route [.lit "values", .lit "get_by_parent_id", .param] .get (.value .getByParentId)
    |>.route [.lit "values", .lit "update", .param] .put (.value .updateValue)
    |>.route [.lit "values", .lit "delete", .param] .delete (.value .deleteValue)
    |>.routeLayer .admin

def measuresRouter : Router Layer Handler :=
  Router.new
    |>.route [.lit "measure", .lit ""] .get .getMeasures

def usersRouter : Router Layer Handler :=
  Router.new
    |>.route [.lit "users", .lit "create"] .post (.user .createUser)
    |>.route [.lit "users", .lit "get_all"] .get (.user .getAllUsers)
    |>.route [.lit "users", .lit "get_by_id", .param] .get (.user .getUserById)
    |>.route [.lit "users", .lit "update", .param] .put (.user .updateUser)
    |>.route [.lit "users", .lit "delete", .param] .delete (.user .deleteUser)
    |>.routeLayer .admin

def userGroupRouter : Router Layer Handler :=
  Router.new
    |>.route [.lit "user_group", .lit "get_by_user_id", .param] .get (.group .getUserGroups)
    |>.route [.lit "user_group", .lit "create"] .post (.group .createGroup)
    |>.route [.lit "user_group", .lit "update", .param] .put (.group .updateGroup)
    |>.route [.lit "user_group", .lit "delete", .param] .delete (.group .deleteGroup)
    |>.route [.lit "user_group", .lit "get_by_id", .param] .get (.group .getGroupById)
    |>.routeLayer .admin
    |>.route [.lit "user_group", .lit "all"] .get (.group .getAllGroups)
    |>.route [.lit "user_group", .lit "ui", .param] .get (.group .uiGetByGroupId)
    |>.route [.lit "user_group", .lit "me"] .get (.group .me)

def userSubgroupRouter : Router Layer Handler :=
  Router.new
    |>.route [.lit "sub_groups", .lit "create"] .post (.subgroup .createSubGroup)
    |>.route [.lit "sub_groups", .lit "update", .param] .put (.subgroup .updateSubGroup)
    |>.route [.lit "sub_groups", .lit "delete", .param] .delete (.subgroup .deleteSubGroup)
    |>.route [.lit "sub_groups", .lit "get_all"] .get (.subgroup .getAllSubGroups)
    |>.route [.lit "sub_groups", .lit "get_by_id", .param] .get (.subgroup .getSubGroupById)
    |>.route [.lit "sub_groups", .lit "get_by_group_id", .param] .get
      (.subgroup .getSubGroupsByGroupId)
    |>.routeLayer .admin
    |>.route [.lit "sub_groups", .lit "ui", .lit "assigns", .param] .get
      (.subgroup .uiGetSubgroupsAssign)

def assignRouter : Router Layer Handler :=
  Router.new
    |>.route [.lit "assign", .lit "group"] .post (.assign .createAssignGroup)
    |>.route [.lit "assign", .lit "values"] .post (.assign .createAssignValues)
    |>.route [.lit "assign", .lit "clean", .lit "users", .param] .delete
      (.assign .cleanGroupAssignments)
    |>.route [.lit "assign", .lit "clean", .lit "subgroups", .param] .delete
      (.assign .cleanValuesAssignments)
    |>.routeLayer .admin

/-- `auth()` -/
def authRouter : Router Layer Handler :=
  Router.new
    |>.route [.lit "auth", .lit "login"] .post (.auth .login)
    |>.route [.lit "auth", .lit "logout"] .post (.auth .logout)
    |>.route [.lit "auth", .lit "refresh_token"] .post (.auth .refreshToken)
    |>.route [.lit "auth", .lit "me"] .get (.auth .me)
    |>.route [.lit "bit"] .get (.auth .bit)

/-- `root()` -/
def rootRouter : Router Layer Handler :=
  Router.new
    |>.route [.lit ""] .get (.root .serveHtml)
    |>.route [.lit "static", .lit "admin.css"] .get (.root .serveCss)
    |>.route [.lit "static", .lit "admin.js"] .get (.root .serveJs)
    |>.route [.lit "static", .lit "schemas.js"] .get (.root .serveSchemas)

def liveRouter : Router Layer Handler :=
  Router.new
    |>.route [.lit "live_data"] .get .wsHandler

def protectedRouter : Router Layer Handler :=
  Router.new
    |>.merge nodeRouter
    |>.merge devicesRouter
    |>.merge valuesRouter
    |>.merge measuresRouter
    |>.merge usersRouter
    |>.merge userGroupRouter
    |>.merge userSubgroupRouter
    |>.merge assignRouter
    |>.layer .auth

/-- `init_axum` -/
def app : Router Layer Handler :=
  Router.new
    |>.merge protectedRouter
    |>.merge authRouter
    |>.merge rootRouter
    |>.merge liveRouter
    |>.layer .cors

/-! ## Answers -/

inductive Served where
  | answered (status : Nat)
  | ran (handler : Handler) (claims : Option Claims)
  | upgraded
  deriving DecidableEq, Repr

/-- `Query<WsParams>`: the parameter must not come twice. -/
def wsParams (query : List (String × String)) : Except Nat (Option String) :=
  match query.filter fun p => p.1 = "token" with
  | [] => .ok none
  | [p] => .ok (some p.2)
  | _ => .error 400

def wsHandler (jwt : Jwt) (req : HttpRequest) : Served :=
  if req.method ≠ .get then .answered 405
  else
    match req.handshake with
    | .error status => .answered status
    | .ok () =>
      match wsParams req.query with
      | .error status => .answered status
      | .ok (some tokenStr) => if (jwt.decode tokenStr).isNone then .answered 401 else .upgraded
      -- without the parameter nothing is decoded
      | .ok none => .upgraded

def serve (jwt : Jwt) (req : HttpRequest) : Served :=
  match app.serve (Layer.run jwt) req.method req.path ⟨req, none⟩ with
  | .error status => .answered status
  | .ok (.wsHandler, req) => wsHandler jwt req.request
  | .ok (handler, req) => .ran handler req.claims

/-! ## Who gets to a handler -/

/-- No handler of a protected route runs and no socket is upgraded without a valid token in the request,
and the handlers that change something need one of an administrator. -/
structure Guarded (jwt : Jwt) (req : HttpRequest) : Prop where
  handlers : ∀ handler claims, serve jwt req = .ran handler claims → handler.isProtected = true →
    ∃ token claims, req.Carries token ∧ jwt.Valid token claims ∧
      (handler.changes = true → claims.roleId = 1)
  socket : serve jwt req = .upgraded → ∃ token claims, req.Carries token ∧ jwt.Valid token claims

theorem layers_of_protected : ∀ e ∈ app.endpoints, e.handler.isProtected = true →
    e.layers = [.cors, .auth] ∨ e.layers = [.cors, .auth, .admin] := by
  decide

theorem layers_of_changes : ∀ e ∈ app.endpoints, e.handler.changes = true →
    e.layers = [.cors, .auth, .admin] := by
  decide

theorem wsHandler_endpoint : ∀ e ∈ app.endpoints, e.handler = .wsHandler →
    e.path = [.lit "live_data"] ∧ e.layers = [.cors] := by
  decide

variable {jwt : Jwt} {req : HttpRequest}

/-- The layers of a route do what the claim says, whatever the request is. -/
theorem handlers_guarded {handler : Handler} {claims : Option Claims}
    (h : serve jwt req = .ran handler claims) (hprotected : handler.isProtected = true) :
    ∃ token claims, req.Carries token ∧ jwt.Valid token claims ∧
      (handler.changes = true → claims.roleId = 1) := by
  unfold serve at h
  split at h
  · cases h
  · next req' _ =>
      unfold wsHandler at h
      split at h
      · cases h
      · split at h
        · cases h
        · split at h
          · cases h
          · split at h <;> cases h
          · cases h
  · next handler' req' _ hserve =>
      cases h
      obtain ⟨e, he, rfl, -, -, hpass⟩ := Router.serve_ok hserve
      have hcors {layers : List Layer} (h : e.layers = .cors :: .auth :: layers) :
          ∃ token claims mid, req.Carries token ∧ jwt.Valid token claims ∧
            mid.claims = some claims ∧ Router.pass (Layer.run jwt) layers mid = .ok req' := by
        rw [h] at hpass
        obtain ⟨mid, hcors, hrest⟩ := Router.pass_cons.mp hpass
        obtain rfl := corsLayer_ok hcors
        obtain ⟨mid', hauth, hrest'⟩ := Router.pass_cons.mp hrest
        obtain ⟨token, claims, hcarries, hvalid, hclaims⟩ := authMiddleware_ok hauth
        exact ⟨token, claims, mid', .inl hcarries, hvalid, hclaims, hrest'⟩
      cases hchanges : e.handler.changes with
      | true =>
          obtain ⟨token, claims, mid, hcarries, hvalid, hclaims, hpass⟩ :=
            hcors (layers_of_changes e he hchanges)
          obtain ⟨mid', hadmin, -⟩ := Router.pass_cons.mp hpass
          obtain ⟨-, claims', hclaims', hrole⟩ := adminMiddleware_ok hadmin
          obtain rfl := Option.some.inj (hclaims.symm.trans hclaims')
          exact ⟨token, claims, hcarries, hvalid, fun _ => hrole⟩
      | false =>
          rcases layers_of_protected e he hprotected with hlayers | hlayers
          · obtain ⟨token, claims, mid, hcarries, hvalid, -⟩ := hcors hlayers
            exact ⟨token, claims, hcarries, hvalid, by simp⟩
          · obtain ⟨token, claims, mid, hcarries, hvalid, -⟩ := hcors hlayers
            exact ⟨token, claims, hcarries, hvalid, by simp⟩

/-! ## The WebSocket -/

theorem wsParams_none : wsParams req.query = .ok none ↔ ∀ token, ("token", token) ∉ req.query := by
  unfold wsParams
  split
  · next hnil =>
      refine iff_of_true rfl fun token hmem => ?_
      exact List.filter_eq_nil_iff.mp hnil _ hmem (decide_eq_true rfl)
  · next p hone =>
      have hp : p ∈ req.query.filter fun p => p.1 = "token" := hone ▸ List.mem_singleton.mpr rfl
      obtain ⟨hmem, hkey⟩ := List.mem_filter.mp hp
      refine iff_of_false (by simp) fun hnone => hnone p.2 ?_
      rwa [← of_decide_eq_true hkey]
  · next hnil _ =>
      refine iff_of_false (by simp) fun hnone => hnil (List.filter_eq_nil_iff.mpr fun p hp hkey => ?_)
      apply hnone p.2
      rwa [← of_decide_eq_true hkey]

theorem wsParams_some {token : String} (h : wsParams req.query = .ok (some token)) :
    ("token", token) ∈ req.query := by
  unfold wsParams at h
  split at h
  · cases h
  · next p hone =>
      cases h
      have hmem : p ∈ req.query.filter fun p => p.1 = "token" := hone ▸ List.mem_singleton.mpr rfl
      obtain ⟨hp, hkey⟩ := List.mem_filter.mp hmem
      rwa [← of_decide_eq_true hkey]
  · cases h

/-- A request gets to the handler of the socket by its path alone. -/
theorem serve_live (hmethod : req.method = .get) (hpath : req.path = ["live_data"]) :
    serve jwt req = wsHandler jwt req := by
  have hserve : app.serve (Layer.run jwt) .get ["live_data"] ⟨req, none⟩ =
      (Router.pass (Layer.run jwt) [.cors] ⟨req, none⟩).map fun req => (Handler.wsHandler, req) := rfl
  have hcors : Router.pass (Layer.run jwt) [.cors] ⟨req, none⟩ = .ok ⟨req, none⟩ := by
    rw [Router.pass_cons]
    refine ⟨⟨req, none⟩, ?_, Router.pass_nil.mpr rfl⟩
    show corsLayer ⟨req, none⟩ = _
    simp [corsLayer, hmethod]
  unfold serve
  rw [hmethod, hpath, hserve, hcors]
  rfl

/-- What an upgrade means. -/
theorem upgraded_iff : serve jwt req = .upgraded ↔
    req.method = .get ∧ req.path = ["live_data"] ∧ req.handshake = .ok () ∧
      ((∀ token, ("token", token) ∉ req.query) ∨
        ∃ token claims, wsParams req.query = .ok (some token) ∧ jwt.Valid token claims) := by
  rw [← wsParams_none]
  have hws : wsHandler jwt req = .upgraded ↔ req.method = .get ∧ req.handshake = .ok () ∧
      (wsParams req.query = .ok none ∨
        ∃ token claims, wsParams req.query = .ok (some token) ∧ jwt.Valid token claims) := by
    unfold wsHandler
    split
    · next hmethod => simp [hmethod]
    · next hmethod =>
        split
        · next hhandshake => simp [hhandshake]
        · next hhandshake =>
            cases hparams : wsParams req.query with
            | error status => simp
            | ok token =>
                cases token with
                | none => simp [not_not.mp hmethod, hhandshake]
                | some token =>
                    cases hdecode : jwt.decode token with
                    | none => simp [← jwt.decode_iff, hdecode]
                    | some claims =>
                        simp [← jwt.decode_iff, hdecode, not_not.mp hmethod, hhandshake]
  constructor
  · intro h
    have hlive : req.path = ["live_data"] ∧ wsHandler jwt req = .upgraded := by
      unfold serve at h
      split at h
      · cases h
      · next req' hserve =>
          obtain ⟨e, he, hhandler, -, hpattern, hpass⟩ := Router.serve_ok hserve
          obtain ⟨hlit, hlayers⟩ := wsHandler_endpoint e he hhandler
          rw [hlayers, Router.pass_cons] at hpass
          obtain ⟨mid, hcors, hpass⟩ := hpass
          obtain rfl := corsLayer_ok hcors
          obtain rfl := Router.pass_nil.mp hpass
          have hmatches := Router.pattern?_matches hpattern
          rw [hlit] at hmatches
          refine ⟨?_, h⟩
          match hpath : req.path with
          | [s] =>
              rw [hpath] at hmatches
              simp [matchesPath, Segment.accepts] at hmatches
              rw [hmatches]
          | [] | _ :: _ :: _ =>
              rw [hpath] at hmatches
              simp [matchesPath] at hmatches
      · cases h
    obtain ⟨hmethod, hhandshake, hparams⟩ := hws.mp hlive.2
    exact ⟨hmethod, hlive.1, hhandshake, hparams⟩
  · rintro ⟨hmethod, hpath, hhandshake, hparams⟩
    rw [serve_live hmethod hpath]
    exact hws.mpr ⟨hmethod, hhandshake, hparams⟩

/-- The claim holds of a request exactly if it is no upgrade without the parameter and without a valid
token in the header. -/
theorem guarded_iff (jwt : Jwt) (req : HttpRequest) : Guarded jwt req ↔
    ¬(req.method = .get ∧ req.path = ["live_data"] ∧ req.handshake = .ok () ∧
      (∀ token, ("token", token) ∉ req.query) ∧
      ∀ token claims, "Bearer " ++ token ∈ req.authorization → ¬jwt.Valid token claims) := by
  constructor
  · rintro h ⟨hmethod, hpath, hhandshake, hquery, hheader⟩
    obtain ⟨token, claims, hcarries, hvalid⟩ :=
      h.socket (upgraded_iff.mpr ⟨hmethod, hpath, hhandshake, .inl hquery⟩)
    rcases hcarries with hcarries | hcarries
    · exact hheader token claims hcarries hvalid
    · exact hquery token hcarries
  · intro h
    refine ⟨fun handler claims hran hprotected => handlers_guarded hran hprotected, fun hupgraded => ?_⟩
    obtain ⟨hmethod, hpath, hhandshake, hquery | ⟨token, claims, htoken, hvalid⟩⟩ :=
      upgraded_iff.mp hupgraded
    · by_contra hnone
      refine h ⟨hmethod, hpath, hhandshake, hquery, fun token claims hcarries hvalid => hnone ?_⟩
      exact ⟨token, claims, .inl hcarries, hvalid⟩
    · exact ⟨token, claims, .inr (wsParams_some htoken), hvalid⟩

/-- One token is valid. -/
def oneToken : Jwt where
  Valid token claims := token = "eyJ0.eyJp.3f1a" ∧ claims = ⟨1, 1, 1900, 1000⟩
  decode token := if token = "eyJ0.eyJp.3f1a" then some ⟨1, 1, 1900, 1000⟩ else none
  decode_iff token claims := by
    rw [Option.ite_none_right_eq_some, Option.some.injEq, eq_comm (a := claims)]

/-- An upgrade with nothing but the headers of the handshake. -/
def bareUpgrade : HttpRequest := ⟨.get, ["live_data"], [], [], .ok ()⟩

theorem bareUpgrade_not_guarded : ¬Guarded oneToken bareUpgrade := by
  intro h
  have hupgraded : serve oneToken bareUpgrade = .upgraded :=
    upgraded_iff.mpr ⟨rfl, rfl, rfl, .inl fun _ => List.not_mem_nil⟩
  obtain ⟨token, claims, hheader | hquery, -⟩ := h.socket hupgraded
  · cases hheader
  · cases hquery

end ModbusLogger.Api
