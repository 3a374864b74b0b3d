import ModbusLogger.Api.Router.Auth
import ModbusLogger.Lib.Routing

/-!
# Requests and the layers that they pass (`api/router/middlewares.rs`)
-/

namespace ModbusLogger.Api

open Routing Auth

/-- A header value has one character for each byte. The query is decoded, and `handshake` is what
`WebSocketUpgrade` says to the headers. -/
structure HttpRequest where
  method : Method
  path : List String
  authorization : List String
  query : List (String × String)
  handshake : Except Nat Unit

/-- A request with the extension that a layer may add. -/
structure Incoming where
  request : HttpRequest
  claims : Option Claims

/-- `jsonwebtoken::decode` with `JWT_KEY`, at the time of a request. It accepts the valid tokens: those
that are correctly signed and have not expired. -/
structure Jwt where
  Valid : String → Claims → Prop
  decode : String → Option Claims
  decode_iff : ∀ token claims, decode token = some claims ↔ Valid token claims

/-- `HeaderValue::to_str` -/
def toStr (value : String) : Option String :=
  if value.toList.all fun c => c = '\t' ∨ 32 ≤ c.toNat ∧ c.toNat < 127 then some value else none

def adminMiddleware (req : Incoming) : Except Nat Incoming :=
  match req.claims with
  | none => .error 401
  | some claims => if claims.roleId ≠ 1 then .error 403 else .ok req

def authMiddleware (jwt : Jwt) (req : Incoming) : Except Nat Incoming :=
  match req.request.authorization.head?.bind toStr with
  | none => .error 401
  | some authHeader =>
    if !"Bearer ".toList.isPrefixOf authHeader.toList then .error 400
    else
      match jwt.decode (String.ofList (authHeader.toList.drop 7)) with
      | none => .error 401
      | some claims => .ok { req with claims := some claims }

/-- `CorsLayer::permissive` answers every `OPTIONS` request. -/
def corsLayer (req : Incoming) : Except Nat Incoming :=
  if req.request.method = .options then .error 200 else .ok req

inductive Layer where
  | admin
  | auth
  | cors
  deriving DecidableEq, Repr

def Layer.run (jwt : Jwt) : Layer → Incoming → Except Nat Incoming
  | admin => adminMiddleware
  | auth => authMiddleware jwt
  | cors => corsLayer

/-- The request has the token in its header or in its query. -/
def HttpRequest.Carries (req : HttpRequest) (token : String) : Prop :=
  "Bearer " ++ token ∈ req.authorization ∨ ("token", token) ∈ req.query

variable {jwt : Jwt} {req req' : Incoming}

theorem toStr_eq_some {value s : String} (h : toStr value = some s) : s = value := by
  unfold toStr at h
  split at h
  · exact (Option.some.inj h).symm
  · cases h

/-- Who passes carries a valid token, and its claims are with the request from then on. -/
theorem authMiddleware_ok (h : authMiddleware jwt req = .ok req') :
    ∃ token claims, "Bearer " ++ token ∈ req.request.authorization ∧ jwt.Valid token claims ∧
      req'.claims = some claims := by
  unfold authMiddleware at h
  split at h
  · cases h
  · next authHeader hheader =>
      obtain ⟨value, hvalue, hstr⟩ := Option.bind_eq_some_iff.mp hheader
      obtain rfl := toStr_eq_some hstr
      split at h
      · cases h
      · next hbearer =>
          split at h
          · cases h
          · next claims hdecode =>
              cases h
              refine ⟨_, claims, ?_, (jwt.decode_iff _ _).mp hdecode, rfl⟩
              rw [Bool.not_eq_true, Bool.not_eq_false', List.isPrefixOf_iff_prefix] at hbearer
              obtain ⟨token, htoken⟩ := hbearer
              have hsame : "Bearer " ++ String.ofList (authHeader.toList.drop 7) = authHeader := by
                apply String.toList_inj.mp
                simp [← htoken]
              rw [hsame]
              exact List.mem_of_mem_head? hvalue

theorem adminMiddleware_ok (h : adminMiddleware req = .ok req') :
    req' = req ∧ ∃ claims, req.claims = some claims ∧ claims.roleId = 1 := by
  unfold adminMiddleware at h
  split at h
  · cases h
  · next claims hclaims =>
      split at h
      · cases h
      · next hrole =>
          cases h
          exact ⟨rfl, claims, hclaims, not_not.mp hrole⟩

theorem corsLayer_ok (h : corsLayer req = .ok req') : req' = req := by
  unfold corsLayer at h
  split at h
  · cases h
  · cases h
    rfl

end ModbusLogger.Api
