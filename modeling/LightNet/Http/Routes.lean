/-
# LightNet.Http.Routes — which handler gets a request.

A route is stored under one string, the method and the path with a space between them.  Two routes can
share a string only if a method or a path contains a space; neither does in a request that the parser
has completed (`Spaceless`), so a request gets the handler that was registered last for exactly its
method and its path, and otherwise the response 404.
-/
import LightNet.Http.Connection
import LightNet.Http.Exchanges
import LightNet.Http.Section
import Mathlib.Data.List.Induction

namespace LightNet.Http

open LightNet.Foundation LightNet.Core

namespace HttpServer

/-- `routes_`, each handler as the function from the request to the response. -/
abbrev Routes := UnorderedMap Bytes (HttpRequest → HttpResponse)

/-- `add_route(method, path, handler)`. -/
def addRoute (routes : Routes) (method path : Bytes) (handler : HttpRequest → HttpResponse) : Routes :=
  UnorderedMap.assign (routeKey method path) handler routes

/-- `get(path, handler)`. -/
def get (routes : Routes) (path : Bytes) (handler : HttpRequest → HttpResponse) : Routes :=
  addRoute routes (ascii ['G', 'E', 'T']) path handler

/-- `post(path, handler)`. -/
def post (routes : Routes) (path : Bytes) (handler : HttpRequest → HttpResponse) : Routes :=
  addRoute routes (ascii ['P', 'O', 'S', 'T']) path handler

/-- What `dispatch(req)` comes to. -/
def respond (routes : Routes) (req : HttpRequest) : HttpResponse :=
  match routes.lookup (routeKey req.method req.path) with
  | some handler => handler req
  | none => notFound

/-- What `dispatch` returns when the handlers answer. -/
theorem dispatch_eq {routes : Routes} {req : HttpRequest} {handler : Except Nat HttpResponse}
    {resp : HttpResponse}
    (hanswer : ∀ f ∈ routes.lookup (routeKey req.method req.path), ∀ r ∈ handler.toOption, r = f req)
    (hresp : dispatch routes.keys req handler = .ok resp) : resp = respond routes req := by
  unfold dispatch at hresp
  unfold respond
  cases hlookup : routes.lookup (routeKey req.method req.path) with
  | some f =>
      have hmem : routeKey req.method req.path ∈ routes.keys :=
        AList.mem_keys.mp (UnorderedMap.mem_iff_lookup.mpr ⟨f, hlookup⟩)
      rw [if_pos (List.contains_iff_mem.mpr hmem)] at hresp
      exact hanswer f hlookup resp (by rw [hresp]; rfl)
  | none =>
      have hmem : routeKey req.method req.path ∉ routes.keys := fun hmem =>
        AList.lookup_eq_none.mp hlookup (AList.mem_keys.mpr hmem)
      rw [if_neg (mt List.contains_iff_mem.mp hmem)] at hresp
      exact (Except.ok.inj hresp).symm

end HttpServer

/-! ## The parts of a start line -/

/-- What is before the first `c` has no `c`. -/
theorem splitAtFirst_notMem {c : UInt8} {xs : Bytes} {r : Bytes × Bytes}
    (h : splitAtFirst c xs = some r) : c ∉ r.1 := by
  induction xs generalizing r with
  | nil => exact absurd h nofun
  | cons x xs ih =>
      rw [splitAtFirst] at h
      split at h
      · obtain rfl := Option.some.inj h
        exact List.not_mem_nil
      · rename_i hx
        obtain ⟨r', hr', rfl⟩ := Option.map_eq_some_iff.mp h
        rw [List.mem_cons, not_or]
        exact ⟨fun heq => hx heq.symm, ih hr'⟩

namespace HttpParser

/-- Neither the method nor the path has a space. -/
def Spaceless (req : HttpRequest) : Prop := 32 ∉ req.method ∧ 32 ∉ req.path

theorem parseStartLine_spaceless {p : HttpParser} (hp : Spaceless p.request) (line : Bytes) :
    Spaceless (p.parseStartLine line).2.request := by
  unfold parseStartLine
  split
  · exact hp
  · rename_i method afterMethod hmethod
    split
    · exact hp
    · rename_i path version hpath
      have hparts : 32 ∉ method ∧ 32 ∉ path :=
        ⟨splitAtFirst_notMem hmethod, splitAtFirst_notMem hpath⟩
      dsimp only
      split
      · exact hparts
      · split <;> exact hparts

theorem parseHeaderLine_spaceless {p : HttpParser} (hp : Spaceless p.request) (line : Bytes) :
    Spaceless (p.parseHeaderLine line).2.request := by
  rw [parseHeaderLine_eq]
  split <;> exact hp

theorem onLine_spaceless {ord : IterOrder Bytes} {p : HttpParser} (hp : Spaceless p.request)
    (line : Bytes) : Spaceless (p.onLine ord line).1.request := by
  have hstart := parseStartLine_spaceless hp line
  have hheader := parseHeaderLine_spaceless hp line
  unfold onLine
  split
  · split <;> rename_i heq <;>
      · rw [heq] at hstart
        exact hstart
  · split
    · dsimp only
      split
      · exact hp
      · split <;> exact hp
    · split <;> rename_i heq <;>
        · rw [heq] at hheader
          exact hheader
  · exact hp

theorem advance_spaceless {ord : IterOrder Bytes} {s s' : ParserState} {xs ys : Bytes}
    (h : advance ord s xs = some (s', ys)) (hs : Spaceless s.1.request) : Spaceless s'.1.request := by
  rcases state_cases s with ⟨p, rfl, hp⟩ | ⟨p, rfl, hp⟩ | hnone
  · rw [advance_of_readsLine ord hp] at h
    obtain ⟨crlf, -, heq⟩ := Option.map_eq_some_iff.mp h
    obtain ⟨rfl, -⟩ := Prod.mk.inj heq
    exact onLine_spaceless hs _
  · rw [advance_of_body hp] at h
    split at h
    · exact absurd h nofun
    · obtain ⟨rfl, -⟩ := Prod.mk.inj (Option.some.inj h)
      exact hs
  · exact absurd h (by simp [hnone])

end HttpParser

/-- The requests of a stream have no space in their method or path. -/
theorem spaceless_of_mem_requestsOf {ord : IterOrder Bytes} {xs : Bytes} {req : HttpRequest}
    (h : req ∈ requestsOf ord xs) : HttpParser.Spaceless req := by
  let Inv : Exchanges → Prop := fun s =>
    HttpParser.Spaceless s.parser.1.request ∧ ∀ req ∈ s.requests, HttpParser.Spaceless req
  have hstep : ∀ s xs s' ys, (Exchanges.consumer ord).step s xs = some (s', ys) → Inv s → Inv s' := by
    rintro s xs s' ys hadv ⟨hparser, hrequests⟩
    obtain ⟨-, ⟨p, hp, -, rfl, -⟩ | ⟨-, parser', hturn, rfl⟩⟩ := Exchanges.advance_cases hadv
    · rw [hp] at hparser
      refine ⟨?_, List.forall_mem_append.mpr ⟨hrequests, List.forall_mem_singleton.mpr hparser⟩⟩
      unfold Exchanges.complete
      dsimp only
      split
      · exact ⟨List.not_mem_nil, List.not_mem_nil⟩
      · exact hparser
    · exact ⟨HttpParser.advance_spaceless hturn hparser, hrequests⟩
  have hstart : Inv {} := ⟨⟨List.not_mem_nil, List.not_mem_nil⟩, List.forall_mem_nil _⟩
  exact (Consumer.run_preserves hstep hstart xs).2 req h

namespace HttpServer

/-! ## The handler that was registered last -/

/-- A call of `add_route`. -/
structure Registration where
  method : Bytes
  path : Bytes
  handler : HttpRequest → HttpResponse

/-- The routes after some calls of `add_route`. -/
def register (regs : List Registration) : Routes :=
  regs.foldl (fun routes r => addRoute routes r.method r.path r.handler) ∅

/-- A key that has one space says which part is the method and which the path. -/
theorem routeKey_inj {method path method' path' : Bytes} (hmethod : 32 ∉ method) (hpath : 32 ∉ path) :
    routeKey method' path' = routeKey method path ↔ method' = method ∧ path' = path := by
  constructor
  · intro h
    have hsplit : ∀ m p : Bytes, routeKey m p = m ++ 32 :: p := fun m p => by simp [routeKey]
    have hcount := congrArg (List.count 32) h
    rw [hsplit, hsplit, List.count_append, List.count_append, List.count_cons_self,
      List.count_cons_self, List.count_eq_zero_of_not_mem hmethod,
      List.count_eq_zero_of_not_mem hpath] at hcount
    have hmethod' : 32 ∉ method' := List.count_eq_zero.mp (by omega)
    have hfirst := HttpParser.splitAtFirst_append hmethod' path'
    rw [← hsplit, h, hsplit, HttpParser.splitAtFirst_append hmethod] at hfirst
    obtain ⟨rfl, rfl⟩ := Prod.mk.inj (Option.some.inj hfirst)
    exact ⟨rfl, rfl⟩
  · rintro ⟨rfl, rfl⟩
    rfl

/-- The table holds the last handler registered under a key. -/
theorem register_lookup (regs : List Registration) {method path : Bytes} (hmethod : 32 ∉ method)
    (hpath : 32 ∉ path) :
    (register regs).lookup (routeKey method path)
      = (regs.reverse.find? fun r => r.method = method ∧ r.path = path).map Registration.handler := by
  induction regs using List.reverseRecOn with
  | nil => rfl
  | append_singleton regs r ih =>
      have hlast : register (regs ++ [r]) = addRoute (register regs) r.method r.path r.handler := by
        rw [register, List.foldl_append]
        rfl
      rw [hlast, addRoute, UnorderedMap.lookup_assign, ih, List.reverse_append, List.reverse_singleton,
        List.singleton_append, List.find?_cons]
      by_cases hsame : r.method = method ∧ r.path = path
      · obtain ⟨rfl, rfl⟩ := hsame
        simp
      · have hkey : ¬ routeKey method path = routeKey r.method r.path := fun h =>
          hsame ((routeKey_inj hmethod hpath).mp h.symm)
        rw [if_neg hkey, decide_eq_false hsame]

/-- **Routing is exact.** Whatever has been registered, under whatever methods and paths, a request off
the wire gets the handler that was registered last for its method and its path, and the response 404
where there is none. -/
theorem respond_registered (ord : IterOrder Bytes) (regs : List Registration) (xs : Bytes) :
    ∀ req ∈ requestsOf ord xs, respond (register regs) req
      = match regs.reverse.find? fun r => r.method = req.method ∧ r.path = req.path with
        | some r => r.handler req
        | none => notFound := by
  intro req hreq
  obtain ⟨hmethod, hpath⟩ := spaceless_of_mem_requestsOf hreq
  rw [respond, register_lookup regs hmethod hpath]
  cases regs.reverse.find? fun r => r.method = req.method ∧ r.path = req.path <;> rfl

/-- Two handlers for one route. -/
def twice : List Registration :=
  [⟨ascii ['G', 'E', 'T'], [47], fun _ => notFound⟩, ⟨ascii ['G', 'E', 'T'], [47], fun _ => {}⟩]

theorem respond_registered_sample :
    (requestsOf (IterOrder.entries Bytes) HttpParser.getRoot.render).map (respond (register twice))
      = [{}] := by
  have hone : (requestsOf (IterOrder.entries Bytes) HttpParser.getRoot.render).map
      (fun req => (req.method, req.path)) = [(ascii ['G', 'E', 'T'], [47])] := by
    decide +kernel
  obtain ⟨req, hrequests, hroute⟩ := List.map_eq_singleton_iff.mp hone
  obtain ⟨hmethod, hpath⟩ := Prod.mk.inj hroute
  have hreq : req ∈ requestsOf (IterOrder.entries Bytes) HttpParser.getRoot.render := by
    rw [hrequests]
    exact List.mem_singleton_self req
  rw [hrequests, List.map_singleton, respond_registered _ twice _ req hreq, hmethod, hpath]
  rfl

end HttpServer

end LightNet.Http
