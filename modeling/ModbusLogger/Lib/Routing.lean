import Mathlib.Data.List.Basic

/-!
# Routers and their layers

A router has endpoints, and each endpoint has the layers that a request passes before its handler runs,
the outermost first. A layer reaches the endpoints that are there when it is added. A path is looked up
first and then the method, and a literal segment of a pattern goes before a parameter.
-/

namespace Routing

inductive Method where
  | get
  | head
  | post
  | put
  | delete
  | options
  | other (name : String)
  deriving DecidableEq, Repr

inductive Segment where
  | lit (text : String)
  | param
  deriving DecidableEq, Repr

/-- `{name}` takes any text but the empty one. -/
def Segment.accepts : Segment → String → Bool
  | lit text, s => s = text
  | param, s => s ≠ ""

def matchesPath : List Segment → List String → Bool
  | [], [] => true
  | pattern :: patterns, s :: path => pattern.accepts s && matchesPath patterns path
  | _, _ => false

/-- Of two patterns for one path, the one with the first literal where they differ. -/
def moreSpecific : List Segment → List Segment → Bool
  | .lit _ :: _, .param :: _ => true
  | .param :: _, .lit _ :: _ => false
  | _ :: patterns, _ :: patterns' => moreSpecific patterns patterns'
  | _, _ => false

/-- `fallback` are the layers around the answer to another method. -/
structure Endpoint (M H : Type*) where
  path : List Segment
  method : Method
  handler : H
  layers : List M
  fallback : List M

/-- A `GET` handler answers a `HEAD` request, too. -/
def Endpoint.allows {M H : Type*} (e : Endpoint M H) (method : Method) : Bool :=
  method = e.method ∨ method = .head ∧ e.method = .get

structure Router (M H : Type*) where
  endpoints : List (Endpoint M H)
  fallback : List M

namespace Router

variable {M H Req : Type*}

def new : Router M H := ⟨[], []⟩

def route (r : Router M H) (path : List Segment) (method : Method) (handler : H) : Router M H :=
  { r with endpoints := r.endpoints ++ [⟨path, method, handler, [], []⟩] }

/-- Around the handlers only. -/
def routeLayer (r : Router M H) (m : M) : Router M H :=
  { r with endpoints := r.endpoints.map fun e => { e with layers := m :: e.layers } }

/-- Around all answers. -/
def layer (r : Router M H) (m : M) : Router M H where
  endpoints := r.endpoints.map fun e =>
    { e with layers := m :: e.layers, fallback := m :: e.fallback }
  fallback := m :: r.fallback

def merge (r r' : Router M H) : Router M H :=
  { r with endpoints := r.endpoints ++ r'.endpoints }

/-- A layer passes the request on, or it answers with a status. -/
def pass (run : M → Req → Except Nat Req) : List M → Req → Except Nat Req
  | [], req => .ok req
  | m :: layers, req => do
    let req ← run m req
    pass run layers req

/-- The pattern that the path is looked up under. -/
def pattern? (r : Router M H) (path : List String) : Option (List Segment) :=
  ((r.endpoints.filter fun e => matchesPath e.path path).map Endpoint.path).foldl
    (fun best pattern => match best with
      | some best => some (if moreSpecific pattern best then pattern else best)
      | none => some pattern) none

/-- The status of an answer without a handler, unless a layer answers. -/
def refuse (run : M → Req → Except Nat Req) (layers : List M) (status : Nat) (req : Req) : Nat :=
  match pass run layers req with
  | .ok _ => status
  | .error status => status

/-- The handler that runs, with the request that it gets, or the status of the answer. -/
def serve (run : M → Req → Except Nat Req) (r : Router M H) (method : Method) (path : List String)
    (req : Req) : Except Nat (H × Req) :=
  match r.pattern? path with
  | none => .error (refuse run r.fallback 404 req)
  | some pattern =>
    match r.endpoints.find? fun e => e.path = pattern ∧ e.allows method with
    | some e => (pass run e.layers req).map fun req => (e.handler, req)
    | none =>
      match r.endpoints.find? fun e => e.path = pattern with
      | some e => .error (refuse run e.fallback 405 req)
      | none => .error (refuse run r.fallback 404 req)

variable {run : M → Req → Except Nat Req} {r r' : Router M H} {m : M} {e : Endpoint M H}
  {layers : List M} {req req' : Req}

theorem pass_cons : pass run (m :: layers) req = .ok req' ↔
    ∃ mid, run m req = .ok mid ∧ pass run layers mid = .ok req' := by
  show (run m req >>= fun mid => pass run layers mid) = .ok req' ↔ _
  cases run m req with
  | ok mid => simp [bind, Except.bind]
  | error status => simp [bind, Except.bind]

@[simp] theorem pass_nil : pass run [] req = .ok req' ↔ req = req' := by
  simp [pass]

/-- The pattern takes the path. -/
theorem pattern?_matches {path : List String} {pattern : List Segment}
    (h : r.pattern? path = some pattern) : matchesPath pattern path = true := by
  have hfold (patterns : List (List Segment)) (best : Option (List Segment))
      (hpatterns : ∀ p ∈ patterns, matchesPath p path = true)
      (hbest : ∀ p, best = some p → matchesPath p path = true)
      (h : patterns.foldl (fun best pattern => match best with
        | some best => some (if moreSpecific pattern best then pattern else best)
        | none => some pattern) best = some pattern) : matchesPath pattern path = true := by
    induction patterns generalizing best with
    | nil => exact hbest _ h
    | cons p patterns ih =>
        have hp := hpatterns p List.mem_cons_self
        have hrest : ∀ q ∈ patterns, matchesPath q path = true :=
          fun q hq => hpatterns q (List.mem_cons_of_mem p hq)
        cases best with
        | none =>
            refine ih (some p) hrest (fun q hq => ?_) h
            obtain rfl := Option.some.inj hq
            exact hp
        | some best =>
            refine ih (some (if moreSpecific p best then p else best)) hrest (fun q hq => ?_) h
            obtain rfl := Option.some.inj hq
            split
            · exact hp
            · exact hbest best rfl
  refine hfold _ none (fun p hp => ?_) (fun _ h => by cases h) h
  obtain ⟨e, he, rfl⟩ := List.mem_map.mp hp
  exact (List.mem_filter.mp he).2

/-- A handler runs after all layers of its endpoint. -/
theorem serve_ok {method : Method} {path : List String} {handler : H}
    (h : serve run r method path req = .ok (handler, req')) :
    ∃ e ∈ r.endpoints, e.handler = handler ∧ e.allows method = true ∧
      r.pattern? path = some e.path ∧ pass run e.layers req = .ok req' := by
  unfold serve at h
  split at h
  · cases h
  · next pattern hpattern =>
      split at h
      · next e hfind =>
          have hfound := List.find?_some hfind
          simp only [decide_eq_true_eq] at hfound
          cases hpass : pass run e.layers req with
          | ok mid =>
              rw [hpass] at h
              cases h
              exact ⟨e, List.mem_of_find?_eq_some hfind, rfl, hfound.2, hfound.1 ▸ hpattern, hpass⟩
          | error status =>
              rw [hpass] at h
              cases h
      · split at h <;> cases h

end Router

end Routing
