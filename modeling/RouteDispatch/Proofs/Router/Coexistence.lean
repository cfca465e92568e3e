import RouteDispatch.Proofs.Router.Resolution

/-!
# Routes that can stand in one router

A node tells the literals that go on from it apart by their hash alone, so building a router fails
when two routes of one method would go on from one node through different literals of one hash, and
only then.  Whether two routes can stand in one router is a relation between their templates
(`Template.Coexist`), and a router can be built when it holds between any two routes of a method.
-/

namespace RouteDispatch

namespace Template

/-- At no node that both templates reach do they go on through different literals of one hash. -/
def Coexist : List Segment → List Segment → Prop
  | .literal x :: s :: a, .literal y :: t :: b =>
    (Text.segmentHash x = Text.segmentHash y → x = y) ∧ (x = y → Coexist (s :: a) (t :: b))
  | .capture _ _ :: s :: a, .capture _ _ :: t :: b => Coexist (s :: a) (t :: b)
  | _, _ => True

theorem coexist_nil_left (b : List Segment) : Coexist [] b := by
  simp [Coexist]

theorem coexist_nil_right (a : List Segment) : Coexist a [] := by
  simp [Coexist]

end Template

open Template

/-- Two items coexist from a depth on when the literals through which they go on are told apart, and
they coexist behind the node to which both go on. -/
theorem Keyed.coexist_iff {α : Type} {depth : Nat} {a b : Keyed α} :
    Coexist (a.below depth) (b.below depth) ↔
      (∀ x y, a.goesOn depth x → b.goesOn depth y →
        Text.segmentHash x = Text.segmentHash y → x = y) ∧
      (∀ x, a.goesOn depth x → b.goesOn depth x →
        Coexist (a.below (depth + 1)) (b.below (depth + 1))) ∧
      (a.capturesOn depth → b.capturesOn depth →
        Coexist (a.below (depth + 1)) (b.below (depth + 1))) := by
  have htail : ∀ k : Keyed α, k.below (depth + 1) = (k.below depth).tail := by
    intro k
    simp [Keyed.below]
  unfold Keyed.goesOn Keyed.capturesOn
  rw [htail a, htail b]
  generalize a.below depth = restA
  generalize b.below depth = restB
  rcases restA with _ | ⟨⟨x⟩ | ⟨name, param⟩, _ | ⟨s, restA⟩⟩ <;>
    rcases restB with _ | ⟨⟨y⟩ | ⟨name', param'⟩, _ | ⟨t, restB⟩⟩
  case cons.literal.cons.cons.literal.cons => simp [Coexist, eq_comm (a := y)]
  all_goals simp [Coexist]

namespace Trie

variable {α : Type}

/-! ## Sorting the items of a node -/

/-- A literal finds its group or opens one where no other literal has its hash. -/
theorem exists_addToGroup
    {text : String} {groups : List (Group α)}
    (h : ∀ g ∈ groups, g.hash = Text.segmentHash text → g.text = text) (k : Keyed α) :
    ∃ groups', addToGroup text k groups = .ok groups' := by
  induction groups with
  | nil => exact ⟨_, rfl⟩
  | cons g rest ih =>
      rw [addToGroup]
      by_cases hhash : g.hash = Text.segmentHash text
      · rw [if_pos hhash, if_pos (h g List.mem_cons_self hhash)]
        exact ⟨_, rfl⟩
      · obtain ⟨more, hmore⟩ := ih fun g' hg' => h g' (List.mem_cons_of_mem _ hg')
        rw [if_neg hhash, hmore]
        exact ⟨g :: more, rfl⟩

/-- The groups of a node change only when an item goes on through a literal. -/
theorem Sorted.groups_of_add
    {depth : Nat} {s s' : Sorted α} {k : Keyed α} (h : s.add depth k = .ok s') :
    s'.groups = s.groups ∨
      ∃ text, k.goesOn depth text ∧ addToGroup text k s.groups = .ok s'.groups := by
  rw [Sorted.add, ← Keyed.below] at h
  split at h
  next => exact .inl (Except.ok.inj h ▸ rfl)
  next => exact .inl (Except.ok.inj h ▸ rfl)
  next => exact .inl (Except.ok.inj h ▸ rfl)
  next text rest hrest hbelow =>
    obtain ⟨groups, hgroups, hs'⟩ := bind_eq_ok_iff.mp h
    obtain ⟨next, rest, rfl⟩ := List.exists_cons_of_ne_nil (by simpa using hrest)
    exact .inr ⟨text, ⟨next, rest, hbelow⟩, Except.ok.inj hs' ▸ hgroups⟩
  next => exact .inl (Except.ok.inj h ▸ rfl)

/-- An item is sorted in if the literal through which it goes on finds its group. -/
theorem Sorted.exists_add
    {depth : Nat} {s : Sorted α} {k : Keyed α}
    (h : ∀ text, k.goesOn depth text → ∃ groups, addToGroup text k s.groups = .ok groups) :
    ∃ s', s.add depth k = .ok s' := by
  rw [Sorted.add, ← Keyed.below]
  split
  next => exact ⟨_, rfl⟩
  next => exact ⟨_, rfl⟩
  next => exact ⟨_, rfl⟩
  next text rest hrest hbelow =>
    obtain ⟨next, rest, rfl⟩ := List.exists_cons_of_ne_nil (by simpa using hrest)
    obtain ⟨groups, hgroups⟩ := h text ⟨next, rest, hbelow⟩
    rw [hgroups]
    exact ⟨_, rfl⟩
  next => exact ⟨_, rfl⟩

theorem Sorted.exists_mem_of_mem_groups
    {depth : Nat} {items : List (Keyed α)} {s : Sorted α} (h : Sorted.of depth items = .ok s) :
    ∀ g ∈ s.groups, ∃ k, k ∈ g.items := by
  induction items using List.reverseRecOn generalizing s with
  | nil =>
      have hs : ({} : Sorted α) = s := Except.ok.inj h
      simp [← hs]
  | append_singleton items k ih =>
      obtain ⟨before, hbefore, hadd⟩ := Sorted.of_concat_eq_ok_iff.mp h
      intro g hg
      rcases Sorted.groups_of_add hadd with hsame | ⟨text, -, hgroup⟩
      · exact ih hbefore g (hsame ▸ hg)
      · rcases addToGroup_cases hgroup with ⟨front, joined, behind, hsplit, -, hafter⟩ | ⟨-, hafter⟩
        · rw [hafter] at hg
          rcases List.mem_append.mp hg with hfront | hrest
          · exact ih hbefore g (hsplit ▸ List.mem_append_left _ hfront)
          · rcases List.mem_cons.mp hrest with rfl | hbehind
            · exact ⟨k, by simp⟩
            · exact ih hbefore g (by rw [hsplit]; simp [hbehind])
        · rw [hafter] at hg
          rcases List.mem_append.mp hg with hold | hnew
          · exact ih hbefore g hold
          · rw [List.mem_singleton.mp hnew]
            exact ⟨k, List.mem_singleton_self k⟩

/-- The items of a node can be sorted exactly when no two different literals through which they go on
have one hash. -/
theorem Sorted.exists_of_iff {depth : Nat} {items : List (Keyed α)} :
    (∃ s, Sorted.of depth items = .ok s) ↔
      ∀ a ∈ items, ∀ b ∈ items, ∀ x y, a.goesOn depth x → b.goesOn depth y →
        Text.segmentHash x = Text.segmentHash y → x = y := by
  constructor
  · rintro ⟨s, hs⟩ a ha b hb x y hax hby hhash
    have hholds := Sorted.Holds.of hs
    obtain ⟨g, hg, rfl, -⟩ := (hholds.groups x a).mpr ⟨ha, hax⟩
    obtain ⟨g', hg', rfl, -⟩ := (hholds.groups y b).mpr ⟨hb, hby⟩
    rw [← hholds.indexed.hashed g hg, ← hholds.indexed.hashed g' hg'] at hhash
    rw [List.inj_on_of_nodup_map hholds.indexed.distinct hg hg' hhash]
  · intro h
    induction items using List.reverseRecOn with
    | nil => exact ⟨{}, rfl⟩
    | append_singleton items k ih =>
        have hbefore : ∃ s, Sorted.of depth items = .ok s := ih fun a ha b hb =>
          h a (List.mem_append_left _ ha) b (List.mem_append_left _ hb)
        obtain ⟨before, hbefore⟩ := hbefore
        have hholds := Sorted.Holds.of hbefore
        have hadd : ∃ s, before.add depth k = .ok s := by
          refine Sorted.exists_add fun text hk => exists_addToGroup ?_ k
          intro g hg hhash
          -- a group with the hash holds an item that goes on through the literal of the group
          obtain ⟨x, hx⟩ := Sorted.exists_mem_of_mem_groups hbefore g hg
          obtain ⟨hxmem, hxon⟩ := (hholds.groups g.text x).mp ⟨g, hg, rfl, hx⟩
          rw [hholds.indexed.hashed g hg] at hhash
          exact h x (List.mem_append_left _ hxmem) k (by simp) g.text text hxon hk hhash
        obtain ⟨s, hs⟩ := hadd
        exact ⟨s, Sorted.of_concat_eq_ok_iff.mpr ⟨before, hbefore, hs⟩⟩

/-! ## Building a trie -/

theorem exists_mapM_eq_ok_iff
    {ε β γ : Type} {f : β → Except ε γ} {inputs : List β} :
    (∃ outputs, inputs.mapM f = .ok outputs) ↔ ∀ b ∈ inputs, ∃ c, f b = .ok c := by
  constructor
  · rintro ⟨outputs, h⟩ b hb
    obtain ⟨c, -, hc⟩ := (exists_of_mapM_ok h).2 b hb
    exact ⟨c, hc⟩
  · intro h
    cases houtputs : inputs.mapM f with
    | ok outputs => exact ⟨outputs, rfl⟩
    | error e =>
        obtain ⟨b, hb, hfb⟩ := exists_of_mapM_error houtputs
        obtain ⟨c, hc⟩ := h b hb
        rw [hfb] at hc
        cases hc

/-- A node can be built when its items can be sorted and all its subtrees can be built. -/
theorem exists_buildIn_succ_iff
    {order : Iteration α} {height depth : Nat} {items : List (Keyed α)} :
    (∃ t, buildIn order (height + 1) depth items = .ok t) ↔
      ∃ s, Sorted.of depth items = .ok s ∧
        (∀ g ∈ s.groups, ∃ child, buildIn order height (depth + 1) g.items = .ok child) ∧
        (s.captures = [] ∨ ∃ child, buildIn order height (depth + 1) s.captures = .ok child) := by
  have hsubtree : ∀ g : Group α,
      (∃ l, (do
        let child ← buildIn order height (depth + 1) g.items
        pure (g.hash, g.text, child) : Except (Collision α) _) = .ok l) ↔
      ∃ child, buildIn order height (depth + 1) g.items = .ok child := by
    intro g
    simp only [bind_eq_ok_iff]
    constructor
    · rintro ⟨l, child, hchild, -⟩
      exact ⟨child, hchild⟩
    · rintro ⟨child, hchild⟩
      exact ⟨_, child, hchild, rfl⟩
  have hvisited : ∀ groups : List (Group α),
      (∃ literals, ((order.visit depth items groups).mapM fun g => do
        let child ← buildIn order height (depth + 1) g.items
        pure (g.hash, g.text, child)) = .ok literals) ↔
      ∀ g ∈ groups, ∃ child, buildIn order height (depth + 1) g.items = .ok child := by
    intro groups
    rw [exists_mapM_eq_ok_iff]
    simp only [(order.visit_perm depth items groups).mem_iff, hsubtree]
  constructor
  · rintro ⟨t, ht⟩
    obtain ⟨s, literals, capture, hs, -, hliterals, hcapture⟩ := buildIn_succ_cases ht
    refine ⟨s, hs, (hvisited s.groups).mp ⟨literals, hliterals⟩, ?_⟩
    rcases hcapture with ⟨hempty, -⟩ | ⟨child, hchild, -⟩
    · exact .inl hempty
    · exact .inr ⟨child, hchild⟩
  · rintro ⟨s, hs, hgroups, hcaptures⟩
    obtain ⟨literals, hliterals⟩ := (hvisited s.groups).mpr hgroups
    rw [buildIn]
    simp only [bind_eq_ok_iff]
    by_cases hempty : s.captures.isEmpty = true
    · exact ⟨_, s, hs, literals, hliterals, by rw [if_pos hempty]; rfl⟩
    · obtain ⟨child, hchild⟩ := hcaptures.resolve_left (by simpa using hempty)
      exact ⟨_, s, hs, literals, hliterals, by rw [if_neg hempty, hchild]; rfl⟩

/-- A trie can be built, in whatever order, exactly when any two of its items coexist. -/
theorem exists_buildIn_iff
    {order : Iteration α} {height depth : Nat} {items : List (Keyed α)}
    (hheight : ∀ k ∈ items, k.segments.length ≤ depth + height) :
    (∃ t, buildIn order height depth items = .ok t) ↔
      ∀ a ∈ items, ∀ b ∈ items, Coexist (a.below depth) (b.below depth) := by
  induction height generalizing depth items with
  | zero =>
      constructor
      · intro _ a ha b _
        have hshort : a.below depth = [] := List.drop_eq_nil_of_le (hheight a ha)
        rw [hshort]
        exact coexist_nil_left _
      · intro _
        exact ⟨_, rfl⟩
  | succ height ih =>
      have hbelow : ∀ x ∈ items, x.segments.length ≤ depth + 1 + height := by
        intro x hx
        have hx' := hheight x hx
        omega
      rw [exists_buildIn_succ_iff]
      constructor
      · rintro ⟨s, hs, hgroups, hcaptures⟩ a ha b hb
        have hholds := Sorted.Holds.of hs
        refine Keyed.coexist_iff.mpr ⟨?_, ?_, ?_⟩
        · exact Sorted.exists_of_iff.mp ⟨s, hs⟩ a ha b hb
        · intro x hax hbx
          obtain ⟨g, hg, htext, hag⟩ := (hholds.groups x a).mpr ⟨ha, hax⟩
          obtain ⟨g', hg', htext', hbg⟩ := (hholds.groups x b).mpr ⟨hb, hbx⟩
          have hsame : g' = g := hholds.indexed.eq_of_text_eq hg' hg (htext'.trans htext.symm)
          have hwithin : ∀ k ∈ g.items, k.segments.length ≤ depth + 1 + height := fun k hk =>
            hbelow k ((hholds.groups g.text k).mp ⟨g, hg, rfl, hk⟩).1
          exact (ih hwithin).mp (hgroups g hg) a hag b (hsame ▸ hbg)
        · intro hax hbx
          have hac := (hholds.captures a).mpr ⟨ha, hax⟩
          have hbc := (hholds.captures b).mpr ⟨hb, hbx⟩
          have hwithin : ∀ k ∈ s.captures, k.segments.length ≤ depth + 1 + height := fun k hk =>
            hbelow k ((hholds.captures k).mp hk).1
          rcases hcaptures with hempty | hchild
          · rw [hempty] at hac
            exact absurd hac List.not_mem_nil
          · exact (ih hwithin).mp hchild a hac b hbc
      · intro h
        obtain ⟨s, hs⟩ := Sorted.exists_of_iff.mpr fun a ha b hb =>
          (Keyed.coexist_iff.mp (h a ha b hb)).1
        have hholds := Sorted.Holds.of hs
        refine ⟨s, hs, ?_, .inr ?_⟩
        · intro g hg
          have hitems : ∀ k ∈ g.items, k ∈ items ∧ k.goesOn depth g.text := fun k hk =>
            (hholds.groups g.text k).mp ⟨g, hg, rfl, hk⟩
          refine (ih fun k hk => hbelow k (hitems k hk).1).mpr ?_
          intro a ha b hb
          have hcoexist := Keyed.coexist_iff.mp (h a (hitems a ha).1 b (hitems b hb).1)
          exact hcoexist.2.1 g.text (hitems a ha).2 (hitems b hb).2
        · have hitems := fun k => (hholds.captures k).mp
          refine (ih fun k hk => hbelow k (hitems k hk).1).mpr ?_
          intro a ha b hb
          have hcoexist := Keyed.coexist_iff.mp (h a (hitems a ha).1 b (hitems b hb).1)
          exact hcoexist.2.2 (hitems a ha).2 (hitems b hb).2

end Trie

namespace Router

theorem exists_buildTreeIn_iff
    {order : Trie.Iteration Route} {method : String} {routes : List Route} :
    (∃ tree, buildTreeIn order method routes = .ok tree) ↔
      ∀ a ∈ routes, ∀ b ∈ routes, Coexist a.segments b.segments := by
  have htrie : (∃ tree, buildTreeIn order method routes = .ok tree) ↔
      ∃ trie, Trie.ofItemsIn order ((routes.filter fun r => !r.segments.isEmpty).map keyed) =
        .ok trie := by
    unfold buildTreeIn
    cases htrie : Trie.ofItemsIn order
        ((routes.filter fun r => !r.segments.isEmpty).map keyed) with
    | ok trie => simp [htrie]
    | error c => simp [htrie]
  rw [htrie, Trie.ofItemsIn, Trie.exists_buildIn_iff fun k hk => by
    simpa using Trie.length_le_height hk]
  constructor
  · intro h a ha b hb
    have hnested : ∀ r ∈ routes, r.segments ≠ [] →
        keyed r ∈ (routes.filter fun r => !r.segments.isEmpty).map keyed := fun r hr hr' =>
      List.mem_map_of_mem (List.mem_filter.mpr ⟨hr, by simpa using hr'⟩)
    by_cases ha' : a.segments = []
    · rw [ha']
      exact coexist_nil_left _
    · by_cases hb' : b.segments = []
      · rw [hb']
        exact coexist_nil_right _
      · exact h (keyed a) (hnested a ha ha') (keyed b) (hnested b hb hb')
  · intro h x hx y hy
    obtain ⟨a, ha, rfl⟩ := List.mem_map.mp hx
    obtain ⟨b, hb, rfl⟩ := List.mem_map.mp hy
    exact h a (List.mem_filter.mp ha).1 b (List.mem_filter.mp hb).1

/-- A router can be built, in whatever order, exactly when any two of its routes of one method
coexist. -/
theorem exists_buildIn_iff {order : Iteration} {routes : List Route} :
    (∃ router, buildIn order routes = .ok router) ↔
      ∀ a ∈ routes, ∀ b ∈ routes, a.method = b.method → Coexist a.segments b.segments := by
  have htrees : (∃ router, buildIn order routes = .ok router) ↔
      ∀ m ∈ methods routes, ∃ tree, buildTreeIn (order.nodes m) m
        (routes.filter fun r => r.method == m) = .ok tree := by
    simp only [← (order.methods_perm routes).mem_iff, ← Trie.exists_mapM_eq_ok_iff, buildIn,
      Trie.bind_eq_ok_iff]
    constructor
    · rintro ⟨router, trees, htrees, -⟩
      exact ⟨trees, htrees⟩
    · rintro ⟨trees, htrees⟩
      exact ⟨⟨trees⟩, trees, htrees, rfl⟩
  rw [htrees]
  simp only [exists_buildTreeIn_iff, List.mem_filter, beq_iff_eq]
  constructor
  · intro h a ha b hb hmethod
    exact h b.method (mem_methods.mpr ⟨b, hb, rfl⟩) a ⟨ha, hmethod⟩ b ⟨hb, rfl⟩
  · rintro h m - a ⟨ha, rfl⟩ b ⟨hb, hb'⟩
    exact h a ha b hb hb'.symm

end Router
end RouteDispatch
