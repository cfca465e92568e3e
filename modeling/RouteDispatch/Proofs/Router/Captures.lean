import RouteDispatch.Proofs.Route.Linkage
import RouteDispatch.Proofs.Router.Resolution

/-!
# Captures of a match

The captures that a search gives back have depths of captured segments of the very route that was
found, each another one.  The compiler has linked these segments to path parameters of the route, so
each capture denotes a parameter that is there, and no two denote the same.
-/

namespace RouteDispatch

namespace Template

/-! ## Captures by depth -/

/-- The segments stand in a template from a depth on. -/
def StandsAt (whole : List Segment) (depth : Nat) (segments : List Segment) : Prop :=
  ∀ i, whole[depth + i]? = segments[i]?

theorem StandsAt.head
    {whole segments : List Segment} {depth : Nat} {s : Segment}
    (h : StandsAt whole depth (s :: segments)) : whole[depth]? = some s :=
  h 0

theorem StandsAt.tail
    {whole segments : List Segment} {depth : Nat} {s : Segment}
    (h : StandsAt whole depth (s :: segments)) : StandsAt whole (depth + 1) segments := by
  intro i
  rw [Nat.add_right_comm]
  exact h (i + 1)

theorem standsAt_zero (segments : List Segment) : StandsAt segments 0 segments := by
  intro i
  rw [Nat.zero_add]

/-- A capture has the depth of a captured segment. -/
theorem mem_of_mem_captured
    {whole segments : List Segment} {depth : Nat} (h : StandsAt whole depth segments)
    {pieces : List String} {c : Capture} (hc : c ∈ captured depth segments pieces) :
    ∃ s ∈ segments, whole[c.depth]? = some s ∧ s.isCapture = true := by
  induction segments generalizing depth pieces with
  | nil => simp [captured] at hc
  | cons s segments ih =>
      cases pieces with
      | nil => simp [captured] at hc
      | cons piece pieces =>
          rw [captured_cons] at hc
          rcases List.mem_append.mp hc with hhead | htail
          · split at hhead
            next hs =>
              obtain rfl := List.mem_singleton.mp hhead
              exact ⟨s, List.mem_cons_self, h.head, hs⟩
            · simp at hhead
          · obtain ⟨t, hmem, ht, hcapture⟩ := ih h.tail htail
            exact ⟨t, List.mem_cons_of_mem _ hmem, ht, hcapture⟩

/-- Captures stand in the order of their depths. -/
theorem pairwise_depth_captured (depth : Nat) (segments : List Segment) (pieces : List String) :
    (∀ c ∈ captured depth segments pieces, depth ≤ c.depth) ∧
      (captured depth segments pieces).Pairwise fun c c' => c.depth < c'.depth := by
  induction segments generalizing depth pieces with
  | nil => simp [captured]
  | cons s segments ih =>
      cases pieces with
      | nil => simp [captured]
      | cons piece pieces =>
          obtain ⟨hbehind, hpairwise⟩ := ih (depth + 1) pieces
          rw [captured_cons]
          constructor
          · intro c hc
            rcases List.mem_append.mp hc with hhead | htail
            · split at hhead
              · rw [List.mem_singleton.mp hhead]
              · simp at hhead
            · have hdeeper := hbehind c htail
              omega
          · split
            · refine List.pairwise_cons.mpr ⟨fun c hc => ?_, hpairwise⟩
              have hdeeper := hbehind c hc
              dsimp only
              omega
            · exact hpairwise

/-- Two places of a template that denote one parameter are the same place. -/
theorem IsLinked.depth_eq
    {params : List ParamSpec} {segments : List Segment} (h : IsLinked params segments)
    {i j param : Nat} (hi : segments[i]?.bind Segment.param? = some param)
    (hj : segments[j]?.bind Segment.param? = some param) : i = j := by
  obtain ⟨s, hs, hsparam⟩ := Option.bind_eq_some_iff.mp hi
  obtain ⟨t, ht, htparam⟩ := Option.bind_eq_some_iff.mp hj
  have hpairwise := List.pairwise_iff_getElem.mp (List.pairwise_filterMap.mp h.distinct)
  obtain ⟨hilt, rfl⟩ := List.getElem?_eq_some_iff.mp hs
  obtain ⟨hjlt, rfl⟩ := List.getElem?_eq_some_iff.mp ht
  rcases Nat.lt_trichotomy i j with hlt | heq | hgt
  · exact absurd rfl (hpairwise i j hilt hjlt hlt param hsparam param htparam)
  · exact heq
  · exact absurd rfl (hpairwise j i hjlt hilt hgt param htparam param hsparam)

end Template

open Template

namespace Endpoint

/-- The parameter that a capture denotes, with its position. -/
def denoted? (e : Endpoint) (c : Capture) : Option (Nat × ParamSpec) :=
  (e.segments[c.depth]?.bind Segment.param?).bind fun param =>
    e.params[param]?.map fun spec => (param, spec)

theorem denoted?_eq_some_iff {e : Endpoint} {c : Capture} {param : Nat} {spec : ParamSpec} :
    e.denoted? c = some (param, spec) ↔
      e.segments[c.depth]?.bind Segment.param? = some param ∧ e.params[param]? = some spec := by
  unfold denoted?
  rw [Option.bind_eq_some_iff]
  constructor
  · rintro ⟨other, hparam, hspec⟩
    obtain ⟨found, hfound, heq⟩ := Option.map_eq_some_iff.mp hspec
    obtain ⟨rfl, rfl⟩ := Prod.mk.inj heq
    exact ⟨hparam, hfound⟩
  · rintro ⟨hparam, hspec⟩
    exact ⟨param, hparam, by rw [hspec, Option.map_some]⟩

/-- The captures stand in the order of the path and have places for their texts: each denotes a path
parameter, and no two denote the same. -/
structure Takes (e : Endpoint) (captures : List Capture) : Prop where
  ordered : captures.Pairwise fun c c' => c.depth < c'.depth
  denotes : ∀ c ∈ captures, ∃ param spec, e.denoted? c = some (param, spec) ∧ spec.source = .path
  distinct : (captures.map e.denoted?).Nodup

theorem denotes_captured
    {e : Endpoint} (h : IsLinked e.params e.segments) {pieces : List String} {c : Capture}
    (hc : c ∈ captured 0 e.segments pieces) :
    ∃ param spec, e.denoted? c = some (param, spec) ∧ spec.source = .path := by
  obtain ⟨s, hmem, hs, hcapture⟩ := mem_of_mem_captured (standsAt_zero e.segments) hc
  cases s with
  | literal text => simp [Segment.isCapture] at hcapture
  | capture name param =>
      obtain ⟨spec, hspec, hpath, -⟩ := h.denotes name param hmem
      exact ⟨param, spec, denoted?_eq_some_iff.mpr ⟨by rw [hs]; rfl, hspec⟩, hpath⟩

/-- A route whose captures are linked has places for the texts that they take from any pieces. -/
theorem takes_captured
    {e : Endpoint} (h : IsLinked e.params e.segments) (pieces : List String) :
    e.Takes (captured 0 e.segments pieces) where
  ordered := (pairwise_depth_captured 0 e.segments pieces).2
  denotes := fun _ hc => denotes_captured h hc
  distinct := by
    refine List.pairwise_map.mpr ((pairwise_depth_captured 0 e.segments pieces).2.imp_of_mem ?_)
    intro c c' hc _ hlt hsame
    obtain ⟨param, spec, hdenoted, -⟩ := denotes_captured h hc
    have hdenoted' := hsame ▸ hdenoted
    have hdepth := h.depth_eq (denoted?_eq_some_iff.mp hdenoted).1
      (denoted?_eq_some_iff.mp hdenoted').1
    omega

end Endpoint

namespace RouteTable

/-- What a compiled table finds is one of its routes, with captures that have places in it. -/
theorem takes_of_find
    {plugins : List Plugin} {definitions : List Definition} {table : RouteTable}
    (h : (build plugins definitions).2 = .ok table) {method path : String} {version : Nat}
    {m : RouteMatch} (hfind : table.router.find method path version = some m) :
    m.route ∈ table.routes ∧ m.route.toEndpoint.Takes m.captures := by
  have hresolution := Router.resolution_of_build h method path version
  rw [hfind] at hresolution
  refine ⟨hresolution.registered, ?_⟩
  rw [hresolution.captures]
  exact Endpoint.takes_captured (linked_of_build h hresolution.registered).1 _

end RouteTable
end RouteDispatch
