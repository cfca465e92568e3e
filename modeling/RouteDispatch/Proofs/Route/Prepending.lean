import RouteDispatch.Proofs.Route.Editing
import RouteDispatch.Proofs.Route.Tokens

/-!
# Paths in front of paths

Putting a path in front of another joins what stands between their outer slashes with one slash, or
with none where nothing stands on one side of the seam.  So the tokens of the front come before the
tokens of the path, no empty one among them is new, and none is lost.  Several plugins that put
paths in front of a definition's path leave a template with the tokens of the last front first.
-/

namespace RouteDispatch

namespace Text

variable {p : Char → Bool} {cs : List Char}

/-! ## The ends of a trimmed text -/

theorem head?_dropEnd {c : Char} (h : (dropEnd p cs).head? = some c) : cs.head? = some c := by
  obtain ⟨back, hcs, -⟩ := exists_eq_dropEnd_append p cs
  obtain ⟨rest, hrest⟩ := List.head?_eq_some_iff.mp h
  rw [hcs, hrest]
  rfl

theorem getLast?_dropEnd {c : Char} (h : (dropEnd p cs).getLast? = some c) : p c = false := by
  induction cs with
  | nil => cases h
  | cons first cs ih =>
      rw [dropEnd] at h
      split at h
      · by_cases hfirst : p first = true
        · rw [if_pos hfirst] at h
          cases h
        · rw [if_neg hfirst] at h
          obtain rfl : first = c := by simpa using h
          simpa using hfirst
      next hne =>
        rw [List.getLast?_cons_of_ne_nil hne] at h
        exact ih h

/-- A trimmed text has none of the characters at its ends. -/
theorem ends_trimBoth (p : Char → Bool) (cs : List Char) :
    (∀ c, (trimBoth p cs).head? = some c → p c = false) ∧
      ∀ c, (trimBoth p cs).getLast? = some c → p c = false := by
  refine ⟨fun c hc => ?_, fun c hc => getLast?_dropEnd hc⟩
  have hhead := List.head?_dropWhile_not p cs
  rw [head?_dropEnd hc] at hhead
  simpa using hhead

/-- More of the characters at the ends of a text make no difference when it is trimmed. -/
theorem trimBoth_append {front back : List Char} (hall : ∀ c ∈ front ++ back, p c = true) :
    trimBoth p (front ++ cs ++ back) = trimBoth p cs := by
  obtain ⟨first, last, hcs, houter⟩ := exists_eq_trimBoth p cs
  obtain ⟨hhead, hlast⟩ := ends_trimBoth p cs
  have hwhole : front ++ cs ++ back = (front ++ first) ++ trimBoth p cs ++ (last ++ back) := by
    conv_lhs => rw [hcs]
    simp only [List.append_assoc]
  have hmore : ∀ c ∈ front ++ first ++ (last ++ back), p c = true := by
    simp only [List.forall_mem_append] at hall houter ⊢
    exact ⟨⟨hall.1, houter.1⟩, houter.2, hall.2⟩
  rw [hwhole]
  exact trimBoth_eq hhead hlast hmore

/-- What is left of a text when its end is trimmed ends with what is left when both ends are. -/
theorem exists_dropEnd_eq (p : Char → Bool) (cs : List Char) :
    ∃ front, dropEnd p cs = front ++ trimBoth p cs ∧ ∀ c ∈ front, p c = true := by
  obtain ⟨dropped, hcs, hdropped⟩ := exists_eq_dropEnd_append p cs
  have hsame : trimBoth p (dropEnd p cs) = trimBoth p cs := by
    have hbehind : ∀ c ∈ [] ++ dropped, p c = true := hdropped
    conv_rhs => rw [hcs]
    exact (trimBoth_append hbehind).symm
  obtain ⟨front, back, hsplit, hall⟩ := exists_eq_trimBoth p (dropEnd p cs)
  obtain ⟨hfront, hback⟩ := List.forall_mem_append.mp hall
  rw [hsame] at hsplit
  -- Nothing can stand behind: it would be the end of a text whose end has been trimmed.
  have hnone : back = [] := by
    by_contra hne
    have hend : (dropEnd p cs).getLast? = some (back.getLast hne) := by
      rw [hsplit, List.getLast?_append_of_ne_nil _ hne, List.getLast?_eq_some_getLast hne]
    have hlast := getLast?_dropEnd hend
    rw [hback _ (List.getLast_mem hne)] at hlast
    cases hlast
  rw [hnone, List.append_nil] at hsplit
  exact ⟨front, hsplit, hfront⟩

end Text

namespace Template

/-! ## The seam -/

/-- A path put in front of another is, between the outer slashes of both, the one and the other with
a slash at the seam; more slashes may stand around. -/
theorem exists_toList_prepend_eq (front path : String) :
    ∃ before behind,
      (prepend front path).toList = before ++ (inner front ++ '/' :: inner path) ++ behind ∧
        ∀ c ∈ before ++ behind, Text.isSolidus c = true := by
  obtain ⟨before, hfront, hbefore⟩ := Text.exists_dropEnd_eq Text.isSolidus front.toList
  obtain ⟨behind, hpath, hbehind⟩ :=
    Text.exists_eq_dropEnd_append Text.isSolidus (path.toList.dropWhile Text.isSolidus)
  refine ⟨before, behind, ?_, List.forall_mem_append.mpr ⟨hbefore, hbehind⟩⟩
  rw [prepend, String.toList_ofList, hfront, hpath]
  simp [inner, Text.trimBoth]

theorem ends_inner (path : String) :
    (∀ c, (inner path).head? = some c → Text.isSolidus c = false) ∧
      ∀ c, (inner path).getLast? = some c → Text.isSolidus c = false :=
  Text.ends_trimBoth Text.isSolidus path.toList

/-- Where nothing stands between the outer slashes on one side, the seam has no slash either. -/
theorem inner_prepend (front path : String) :
    inner (prepend front path) =
      if inner front = [] then inner path
      else if inner path = [] then inner front
      else inner front ++ '/' :: inner path := by
  have hslash : Text.isSolidus '/' = true := rfl
  obtain ⟨hfrontHead, hfrontLast⟩ := ends_inner front
  obtain ⟨hpathHead, hpathLast⟩ := ends_inner path
  obtain ⟨before, behind, hwhole, hall⟩ := exists_toList_prepend_eq front path
  have hinner : inner (prepend front path) =
      Text.trimBoth Text.isSolidus (inner front ++ '/' :: inner path) := by
    rw [inner, hwhole]
    exact Text.trimBoth_append hall
  rw [hinner]
  split
  next hfront =>
    have hseam : ∀ c ∈ ['/'] ++ [], Text.isSolidus c = true := by simpa using hslash
    simpa [hfront] using Text.trimBoth_eq hpathHead hpathLast hseam
  next hfront =>
    split
    next hpath =>
      have hseam : ∀ c ∈ [] ++ ['/'], Text.isSolidus c = true := by simpa using hslash
      simpa [hpath] using Text.trimBoth_eq hfrontHead hfrontLast hseam
    next hpath =>
      have hhead : ∀ c, (inner front ++ '/' :: inner path).head? = some c →
          Text.isSolidus c = false := by
        rw [List.head?_append_of_ne_nil _ hfront]
        exact hfrontHead
      have hlast : ∀ c, (inner front ++ '/' :: inner path).getLast? = some c →
          Text.isSolidus c = false := by
        rw [List.getLast?_append_of_ne_nil _ (List.cons_ne_nil _ _),
          List.getLast?_cons_of_ne_nil hpath]
        exact hpathLast
      have hnone : ∀ c ∈ [] ++ [], Text.isSolidus c = true := by simp
      simpa using Text.trimBoth_eq hhead hlast hnone

/-- The tokens of a path in front of another come before the tokens of the other. -/
theorem tokens_prepend (front path : String) :
    tokens (prepend front path) = tokens front ++ tokens path := by
  have hinner := inner_prepend front path
  by_cases hfront : inner front = []
  · rw [if_pos hfront] at hinner
    rw [tokens_of_inner_eq_nil hfront, List.nil_append, tokens, tokens, hinner]
  · rw [if_neg hfront] at hinner
    by_cases hpath : inner path = []
    · rw [if_pos hpath] at hinner
      rw [tokens_of_inner_eq_nil hpath, List.append_nil, tokens, tokens, hinner]
    · rw [if_neg hpath] at hinner
      have hne : inner (prepend front path) ≠ [] := by simp [hinner]
      rw [tokens_eq hne, tokens_eq hfront, tokens_eq hpath, hinner, Text.split_append_cons rfl,
        List.map_append]

/-! ## Several fronts -/

/-- Puts paths in front of a path, one after the other. -/
def prependAll (fronts : List String) (path : String) : String :=
  fronts.foldl (fun path front => prepend front path) path

theorem prependAll_append (fronts more : List String) (path : String) :
    prependAll (fronts ++ more) path = prependAll more (prependAll fronts path) :=
  List.foldl_append

/-- The front that was put last comes first. -/
theorem tokens_prependAll (fronts : List String) (path : String) :
    tokens (prependAll fronts path) = fronts.reverse.flatMap tokens ++ tokens path := by
  induction fronts generalizing path with
  | nil => rfl
  | cons front fronts ih =>
      calc
        tokens (prependAll (front :: fronts) path) =
            fronts.reverse.flatMap tokens ++ tokens (prepend front path) := ih (prepend front path)
        _ = fronts.reverse.flatMap tokens ++ (tokens front ++ tokens path) := by
          rw [tokens_prepend]
        _ = (front :: fronts).reverse.flatMap tokens ++ tokens path := by simp

/-- No token is added at a seam, and none is lost. -/
theorem count_tokens_prependAll (token : String) (fronts : List String) (path : String) :
    (tokens (prependAll fronts path)).count token =
      (fronts.flatMap tokens).count token + (tokens path).count token := by
  have hperm : (fronts.reverse.flatMap tokens).Perm (fronts.flatMap tokens) :=
    (List.reverse_perm fronts).flatMap_right tokens
  rw [tokens_prependAll, List.count_append, hperm.count_eq]

end Template

namespace Signature

theorem foldl_prependPath (s : Signature) (fronts : List String) :
    fronts.foldl prependPath s = { s with path := Template.prependAll fronts s.path } := by
  induction fronts generalizing s with
  | nil => rfl
  | cons front fronts ih => exact ih (s.prependPath front)

/-- Paths put in front of the path of a signature, one after the other and with any slashes around
them, change nothing but the path.  Its tokens are those of the fronts, the last front first, and
then those of the path that was there; the seams neither add an empty one nor take one away.  The
template is read exactly as these tokens denote, and like any other path that has them but for the
path that a refusal quotes. -/
theorem prependPath_concatenates (s : Signature) (fronts : List String) :
    let t := fronts.foldl prependPath s
    let seen := fronts.reverse.flatMap Template.tokens ++ Template.tokens s.path
    t = { s with path := t.path } ∧
      Template.tokens t.path = seen ∧
      (Template.tokens t.path).count "" =
        (fronts.flatMap Template.tokens).count "" + (Template.tokens s.path).count "" ∧
      ∀ route params,
        (∀ segments, Template.parse route t.path params = .ok segments ↔
          Template.Reads params seen segments) ∧
        ∀ path, Template.tokens path = seen →
          Template.parse route t.path params =
            (Template.parse route path params).mapError (BuildError.quoting t.path) := by
  intro t seen
  have ht : t = { s with path := Template.prependAll fronts s.path } := foldl_prependPath s fronts
  have hpath : t.path = Template.prependAll fronts s.path := congrArg Signature.path ht
  have hseen : Template.tokens t.path = seen := by
    rw [hpath]
    exact Template.tokens_prependAll fronts s.path
  refine ⟨by rw [hpath]; exact ht, hseen, ?_, fun route params => ⟨fun segments => ?_, ?_⟩⟩
  · rw [hpath]
    exact Template.count_tokens_prependAll "" fronts s.path
  · rw [← hseen]
    exact Template.parse_eq_ok_iff
  · intro path hsame
    exact Template.parse_eq_of_tokens_eq route path params (hseen.trans hsame.symm)

/-- Slashes around the fronts and the path leave no token, and the front of slashes only adds
none. -/
theorem prependPath_concatenates_tenant :
    let s : Signature := ⟨"items", "GET", 0, "//items/", [.path "tenant" .string]⟩
    let t := ["/:tenant//", "//", "v1"].foldl prependPath s
    let seen := ["v1", ":tenant", "items"]
    t.path = "v1/:tenant/items/" ∧ Template.tokens t.path = seen ∧
      Template.tokens "/v1/:tenant/items" = seen ∧
      Template.Reads s.params seen [.literal "v1", .capture "tenant" 0, .literal "items"] ∧
      Template.parse "items" t.path s.params =
        (Template.parse "items" "/v1/:tenant/items" s.params).mapError
          (BuildError.quoting t.path) := by
  intro s t seen
  obtain ⟨-, htokens, -, hread⟩ := prependPath_concatenates s ["/:tenant//", "//", "v1"]
  obtain ⟨hreads, halike⟩ := hread "items" s.params
  have hseen : ["/:tenant//", "//", "v1"].reverse.flatMap Template.tokens ++
      Template.tokens s.path = seen := by decide
  rw [hseen] at htokens hreads halike
  have hflat : Template.tokens "/v1/:tenant/items" = seen := by decide
  have hparse : Template.parse "items" t.path s.params =
      .ok [.literal "v1", .capture "tenant" 0, .literal "items"] := by decide
  exact ⟨by decide, htokens, hflat, (hreads _).mp hparse, halike _ hflat⟩

end Signature

/-! ## The plugins of a table -/

namespace Edit

/-- The plugin put the paths in front of the path that it was offered, and left the path alone
otherwise. -/
def Prepends (e : Edit) (fronts : List String) : Prop :=
  e.after.path = Template.prependAll fronts e.before.path

theorem Leads.path_eq {s t : Signature} {edits : List Edit} (h : Leads s edits t)
    {fronts : List (List String)} (hfronts : List.Forall₂ Prepends edits fronts) :
    t.path = Template.prependAll fronts.flatten s.path := by
  induction h generalizing fronts with
  | nil s =>
      cases hfronts
      rfl
  | cons e _ ih =>
      cases hfronts with
      | @cons _ first _ fronts hfirst hrest =>
          have hafter : e.after.path = Template.prependAll first e.before.path := hfirst
          rw [List.flatten_cons, Template.prependAll_append, ← hafter]
          exact ih hrest

end Edit

namespace RouteTable

/-- Where the plugins do nothing to the path but put others in front of it, the segments of a
compiled route are what the tokens of all fronts denote, the last front first, and behind them the
tokens of the definition's path. -/
theorem reads_of_prepends
    {plugins : List Plugin} {d : Definition} {r : Route} (h : Compiles plugins d r) :
    ∃ edits t, edits.map Edit.plugin = plugins ∧ d.IsEdited edits t ∧
      ∀ fronts, List.Forall₂ Edit.Prepends edits fronts →
        let seen := fronts.flatten.reverse.flatMap Template.tokens ++ Template.tokens d.path
        Template.Reads r.params seen r.segments := by
  obtain ⟨edits, t, rfl, hedited, -, hcompile⟩ := Definition.compiles_iff.mp h
  refine ⟨edits, t, rfl, hedited, ?_⟩
  intro fronts hfronts seen
  obtain ⟨version, -, hleads⟩ := hedited
  obtain ⟨-, -, segments, hparse, rfl⟩ := Signature.of_compile hcompile
  have hseen : Template.tokens t.path = seen := by
    rw [hleads.path_eq hfronts]
    exact Template.tokens_prependAll fronts.flatten d.path
  rw [← hseen]
  exact Template.parse_eq_ok_iff.mp hparse

end RouteTable
end RouteDispatch
