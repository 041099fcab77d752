import RouteInventory.Proofs.Text.Trim
import RouteInventory.Reference.Normal

/-!
# Canonical routes

All that normalization takes from a text is a `Decoration` (`exists_decoration`), and of a canonical route every
decoration is taken (`Decoration.normalize_text`). What the last step leaves need not be canonical, since a slash
or a quote may stand behind the blanks that it takes. The routes that stay as they are under normalization are the
ones with `IsNormal`, and a text that is normalized again and again comes to such a route.
-/

namespace RouteInventory.Reference

open Text Script

/-! ### Routes and their decorations -/

/-- Quotes and blanks of all kinds. -/
def isEdge (c : Char) : Bool := isQuote c || Text.isBlank c

/-- Whether nothing can be taken from a route. -/
structure IsNormal (route : List Char) : Prop where
  noHash : '#' ∉ route
  noSlash : route.head? ≠ some '/'
  trimmed : IsTrimmed isEdge route

structure IsCanonical (route : List Char) : Prop extends IsNormal route where
  nonempty : route ≠ []

instance (route : List Char) : Decidable (IsNormal route) :=
  decidable_of_iff ('#' ∉ route ∧ route.head? ≠ some '/' ∧ IsTrimmed isEdge route)
    ⟨fun h => ⟨h.1, h.2.1, h.2.2⟩, fun h => ⟨h.1, h.2, h.3⟩⟩

instance (route : List Char) : Decidable (IsCanonical route) :=
  decidable_of_iff (IsNormal route ∧ route ≠ []) ⟨fun h => ⟨h.1, h.2⟩, fun h => ⟨h.1, h.2⟩⟩

inductive HashMarker
  | absent
  | hash
  | hashSlash
deriving DecidableEq, Repr

def HashMarker.text : HashMarker → List Char
  | absent => []
  | hash => ['#']
  | hashSlash => ['#', '/']

/-- What may stand around a route: junk, slashes, the marker of hash-based addresses, more slashes and blanks in
front of it, blanks, a fragment and junk behind it. -/
structure Decoration where
  left : List Char
  slashes : List Char
  marker : HashMarker
  moreSlashes : List Char
  leftBlanks : List Char
  rightBlanks : List Char
  fragment : List Char
  right : List Char
  left_junk : ∀ c ∈ left, isEdgeJunk c = true
  slashes_eq : ∀ c ∈ slashes, isSlash c = true
  moreSlashes_eq : ∀ c ∈ moreSlashes, isSlash c = true
  leftBlanks_blank : ∀ c ∈ leftBlanks, Text.isBlank c = true
  rightBlanks_blank : ∀ c ∈ rightBlanks, Text.isBlank c = true
  fragment_hash : ∀ c ∈ fragment.head?, c = '#'
  right_junk : ∀ c ∈ right, isEdgeJunk c = true

namespace Decoration

/-- Slashes and marker in front of a route. -/
def address (d : Decoration) : List Char := d.slashes ++ (d.marker.text ++ d.moreSlashes)

/-- What stands behind a route. -/
def back (d : Decoration) : List Char := d.rightBlanks ++ (d.fragment ++ d.right)

/-- A route with its decoration. -/
def text (d : Decoration) (route : List Char) : List Char :=
  d.left ++ (d.address ++ d.leftBlanks) ++ (route ++ d.back)

end Decoration

variable {route raw text blanks : List Char}

theorem isEdge_of_isEdgeJunk {c : Char} (h : isEdgeJunk c = true) : isEdge c = true := by
  simp only [isEdgeJunk, Bool.or_eq_true, decide_eq_true_eq] at h
  rcases h with (((h | rfl) | rfl) | rfl) | rfl
  · rw [isEdge, h, Bool.true_or]
  all_goals decide

theorem isEdge_of_isBlank {c : Char} (h : Text.isBlank c = true) : isEdge c = true := by
  rw [isEdge, h, Bool.or_true]

/-! ### What is taken -/

theorem exists_dropHashMarker (text : List Char) :
    ∃ marker : HashMarker, text = marker.text ++ dropHashMarker text := by
  unfold dropHashMarker
  split
  · exact ⟨.hashSlash, rfl⟩
  · exact ⟨.hash, rfl⟩
  · exact ⟨.absent, rfl⟩

theorem exists_dropFragment (text : List Char) :
    ∃ fragment : List Char, (∀ c ∈ fragment.head?, c = '#') ∧ text = dropFragment text ++ fragment := by
  refine ⟨text.dropWhile (· != '#'), fun c hc => ?_, List.takeWhile_append_dropWhile.symm⟩
  have hnot := List.head?_dropWhile_not (· != '#') text
  rw [show (text.dropWhile (· != '#')).head? = some c from hc] at hnot
  simpa using hnot

theorem hash_not_mem_dropFragment (text : List Char) : '#' ∉ dropFragment text := by
  intro hmem
  simpa using List.all_eq_true.mp (List.all_takeWhile (p := (· != '#'))) _ hmem

theorem exists_decoration (raw : List Char) : ∃ d : Decoration, raw = d.text (normalize raw) := by
  obtain ⟨left, right, hleft, hright, hraw⟩ := exists_trim isEdgeJunk raw
  obtain ⟨slashes, hslashes, htrimmed⟩ := exists_trimStart isSlash (trim isEdgeJunk raw)
  obtain ⟨marker, hmarker⟩ := exists_dropHashMarker (trimStart isSlash (trim isEdgeJunk raw))
  obtain ⟨more, hmore, hunmarked⟩ :=
    exists_trimStart isSlash (dropHashMarker (trimStart isSlash (trim isEdgeJunk raw)))
  obtain ⟨fragment, hfragment, hbare⟩ := exists_dropFragment
    (trimStart isSlash (dropHashMarker (trimStart isSlash (trim isEdgeJunk raw))))
  obtain ⟨leftBlanks, rightBlanks, hleftBlanks, hrightBlanks, hstrip⟩ := exists_trim Text.isBlank
    (dropFragment (trimStart isSlash (dropHashMarker (trimStart isSlash (trim isEdgeJunk raw)))))
  refine ⟨⟨left, slashes, marker, more, leftBlanks, rightBlanks, fragment, right, hleft, hslashes, hmore,
    hleftBlanks, hrightBlanks, hfragment, hright⟩, ?_⟩
  calc raw = left ++ (slashes ++ (marker.text ++ (more ++
        ((leftBlanks ++ normalize raw ++ rightBlanks) ++ fragment)))) ++ right := by
        rw [show normalize raw = trim Text.isBlank _ from rfl, ← hstrip, ← hbare, ← hunmarked, ← hmarker,
          ← htrimmed, ← hraw]
    _ = _ := by simp [Decoration.text, Decoration.address, Decoration.back]

theorem Decoration.eq_slash_or_hash (d : Decoration) {c : Char} (hc : c ∈ d.address) : c = '/' ∨ c = '#' := by
  have hmarker : ∀ c ∈ d.marker.text, c = '/' ∨ c = '#' := by
    cases d.marker <;> simp [HashMarker.text]
  simp only [Decoration.address, List.mem_append] at hc
  rcases hc with hc | hc | hc
  · exact .inl (of_decide_eq_true (d.slashes_eq c hc))
  · exact hmarker c hc
  · exact .inl (of_decide_eq_true (d.moreSlashes_eq c hc))

theorem trimStart_address (d : Decoration) : ∃ blanks, (∀ c ∈ blanks, Text.isBlank c = true) ∧
    trimStart isEdgeJunk (d.left ++ (d.address ++ d.leftBlanks)) = d.address ++ blanks := by
  rw [trimStart_append d.left_junk]
  have haddress : ∀ c ∈ d.address.head?, isEdgeJunk c = false := by
    intro c hc
    rcases d.eq_slash_or_hash (List.mem_of_mem_head? hc) with rfl | rfl
    · decide
    · decide
  cases h : d.address with
  | nil =>
    refine ⟨trimStart isEdgeJunk d.leftBlanks, fun c hc => ?_, rfl⟩
    exact d.leftBlanks_blank c ((trimStart_sublist _ _).subset hc)
  | cons c rest =>
    refine ⟨d.leftBlanks, d.leftBlanks_blank, trimStart_of_head? fun e he => haddress e ?_⟩
    rw [h]
    exact he

/-- Slashes and marker are taken from what begins with neither. -/
theorem trimStart_dropHashMarker (d : Decoration) (hslash : text.head? ≠ some '/')
    (hhash : text.head? ≠ some '#') :
    trimStart isSlash (dropHashMarker (trimStart isSlash (d.address ++ text))) = text := by
  have htext : trimStart isSlash text = text := by
    refine trimStart_of_head? fun c hc => decide_eq_false ?_
    rintro rfl
    exact hslash hc
  have hmore : trimStart isSlash (d.moreSlashes ++ text) = text := by
    rw [trimStart_append d.moreSlashes_eq, htext]
  rw [Decoration.address, List.append_assoc, List.append_assoc, trimStart_append d.slashes_eq]
  cases d.marker with
  | absent =>
    have hdrop : dropHashMarker text = text := by
      unfold dropHashMarker
      split
      · exact absurd rfl hhash
      · exact absurd rfl hhash
      · rfl
    rw [HashMarker.text, List.nil_append, hmore, hdrop, htext]
  | hash =>
    have hkept : trimStart isSlash ('#' :: (d.moreSlashes ++ text)) = '#' :: (d.moreSlashes ++ text) :=
      trimStart_of_head? (by simp [isSlash])
    rw [HashMarker.text, List.singleton_append, hkept]
    -- the marker takes one of the slashes behind it, if there is one
    cases hrest : d.moreSlashes ++ text with
    | nil => rw [dropHashMarker, ← hrest, hmore]; simp
    | cons c rest =>
      by_cases hc : c = '/'
      · subst hc
        rw [dropHashMarker, ← hmore, hrest]
        rfl
      · rw [dropHashMarker, ← hrest, hmore]
        simpa using hc
  | hashSlash =>
    have hkept : trimStart isSlash ('#' :: '/' :: (d.moreSlashes ++ text)) =
        '#' :: '/' :: (d.moreSlashes ++ text) := trimStart_of_head? (by simp [isSlash])
    rw [HashMarker.text, List.cons_append, List.singleton_append, hkept, dropHashMarker, hmore]

theorem isBlank_of_mem_back (d : Decoration) {c : Char}
    (hc : c ∈ dropFragment (trimEnd isEdgeJunk d.back)) : Text.isBlank c = true := by
  have hnohash : '#' ∉ dropFragment (trimEnd isEdgeJunk d.back) := hash_not_mem_dropFragment _
  have hkept : c ∈ trimEnd isEdgeJunk d.back := List.takeWhile_subset _ hc
  cases hfragment : d.fragment with
  | nil =>
    rw [Decoration.back, hfragment, List.nil_append, trimEnd_append d.right_junk] at hkept
    exact d.rightBlanks_blank c ((trimEnd_sublist _ _).subset hkept)
  | cons hash rest =>
    obtain rfl : hash = '#' := d.fragment_hash hash (by rw [hfragment]; rfl)
    -- nothing up to the first number sign comes from behind the blanks
    have hprefix : dropFragment (trimEnd isEdgeJunk d.back) <+: d.rightBlanks ++ '#' :: (rest ++ d.right) := by
      obtain ⟨right, -, hback⟩ := exists_trimEnd isEdgeJunk d.back
      rw [← List.cons_append, ← hfragment, show d.rightBlanks ++ (d.fragment ++ d.right) = _ from hback]
      exact (List.takeWhile_prefix _).trans (List.prefix_append _ _)
    rcases List.prefix_or_prefix_of_prefix hprefix (List.prefix_append _ _) with h | ⟨more, hmore⟩
    · exact d.rightBlanks_blank c (h.subset hc)
    · cases more with
      | nil =>
        rw [← hmore, List.append_nil] at hc
        exact d.rightBlanks_blank c hc
      | cons e more =>
        rw [← hmore] at hprefix hnohash
        obtain ⟨rfl, -⟩ := List.cons_prefix_cons.mp ((List.prefix_append_right_inj _).mp hprefix)
        exact absurd (List.mem_append_right _ List.mem_cons_self) hnohash

theorem Decoration.normalize_text (d : Decoration) (h : IsCanonical route) :
    normalize (d.text route) = route := by
  obtain ⟨blanks, hblanks, haddress⟩ := trimStart_address d
  have htrim : trim isEdgeJunk (d.text route) =
      d.address ++ (blanks ++ (route ++ trimEnd isEdgeJunk d.back)) := by
    rw [Decoration.text, trim_append_append _ _ h.nonempty (h.trimmed.mono fun _ => isEdge_of_isEdgeJunk),
      haddress, List.append_assoc]
  have hhead : ∀ c ∈ (blanks ++ (route ++ trimEnd isEdgeJunk d.back)).head?, c ≠ '/' ∧ c ≠ '#' := by
    intro c hc
    cases hcases : blanks with
    | nil =>
      rw [hcases, List.nil_append, List.head?_append_of_ne_nil _ h.nonempty] at hc
      exact ⟨fun heq => h.noSlash (heq ▸ hc), fun heq => h.noHash (heq ▸ List.mem_of_mem_head? hc)⟩
    | cons e rest =>
      rw [hcases] at hc
      obtain rfl : e = c := by simpa using hc
      have hblank := hblanks e (by simp [hcases])
      exact ⟨ne_of_isBlank hblank (by decide), ne_of_isBlank hblank (by decide)⟩
  have hbare : dropFragment (blanks ++ (route ++ trimEnd isEdgeJunk d.back)) =
      blanks ++ route ++ dropFragment (trimEnd isEdgeJunk d.back) := by
    have hkept : ∀ c ∈ blanks ++ route, (c != '#') = true := by
      intro c hc
      rw [bne_iff_ne]
      rcases List.mem_append.mp hc with hc | hc
      · exact ne_of_isBlank (hblanks c hc) (by decide)
      · exact fun heq => h.noHash (heq ▸ hc)
    rw [← List.append_assoc]
    exact List.takeWhile_append_of_pos hkept
  rw [normalize, htrim, trimStart_dropHashMarker d (fun hc => (hhead _ hc).1 rfl) (fun hc => (hhead _ hc).2 rfl),
    hbare]
  exact trim_append hblanks (fun c hc => isBlank_of_mem_back d hc) (h.trimmed.mono fun _ => isEdge_of_isBlank)

/-- The texts that refer to a canonical route are the route with any decoration. -/
theorem normalize_eq_iff_decorated (h : IsCanonical route) (raw : List Char) :
    normalize raw = route ↔ ∃ d : Decoration, raw = d.text route := by
  constructor
  · rintro rfl
    exact exists_decoration raw
  · rintro ⟨d, rfl⟩
    exact d.normalize_text h

theorem normalize_dailyReports :
    IsCanonical "reports/daily".toList ∧
      normalize "'/#///reports/daily#/'top'\t\"".toList = "reports/daily".toList := by
  have h : IsCanonical "reports/daily".toList := by decide
  let d : Decoration :=
    { left := ['\'']
      slashes := ['/']
      marker := .hashSlash
      moreSlashes := ['/', '/']
      leftBlanks := []
      rightBlanks := []
      fragment := "#/'top'".toList
      right := ['\t', '"']
      left_junk := by simp [isEdgeJunk, isQuote]
      slashes_eq := by simp [isSlash]
      moreSlashes_eq := by simp [isSlash]
      leftBlanks_blank := by simp
      rightBlanks_blank := by simp
      fragment_hash := by simp
      right_junk := by simp [isEdgeJunk, isQuote] }
  exact ⟨h, (normalize_eq_iff_decorated h _).mpr ⟨d, rfl⟩⟩

/-! ### Routes that stay as they are -/

/-- What is left of a text in front of its fragment when junk, slashes and the marker are gone. -/
def bared (raw : List Char) : List Char :=
  dropFragment (trimStart isSlash (dropHashMarker (trimStart isSlash (trim isEdgeJunk raw))))

theorem dropHashMarker_sublist (text : List Char) : (dropHashMarker text).Sublist text := by
  obtain ⟨marker, h⟩ := exists_dropHashMarker text
  nth_rewrite 2 [h]
  exact List.sublist_append_right _ _

theorem normalize_sublist_trimStart (raw : List Char) :
    (normalize raw).Sublist (trimStart isSlash (trim isEdgeJunk raw)) :=
  (trim_sublist _ _).trans <| (List.takeWhile_sublist _).trans <|
    (trimStart_sublist _ _).trans (dropHashMarker_sublist _)

theorem normalize_sublist (raw : List Char) : (normalize raw).Sublist raw :=
  (normalize_sublist_trimStart raw).trans <| (trimStart_sublist _ _).trans (trim_sublist _ _)

theorem hash_not_mem_normalize (raw : List Char) : '#' ∉ normalize raw := fun h =>
  hash_not_mem_dropFragment _ ((trim_sublist Text.isBlank (bared raw)).subset h)

theorem isTrimmed_normalize (raw : List Char) : IsTrimmed Text.isBlank (normalize raw) :=
  isTrimmed_trim _ _

theorem isTrimmed_isEdge (hjunk : IsTrimmed isEdgeJunk text) (hblank : IsTrimmed Text.isBlank text) :
    IsTrimmed isEdge text := by
  have hedge {c : Char} (hc : isEdgeJunk c = false) (hc' : Text.isBlank c = false) : isEdge c = false := by
    simp only [isEdgeJunk, Bool.or_eq_false_iff] at hc
    rw [isEdge, hc', hc.1.1.1.1]
    rfl
  exact ⟨fun c hc => hedge (hjunk.1 c hc) (hblank.1 c hc), fun c hc => hedge (hjunk.2 c hc) (hblank.2 c hc)⟩

theorem normalize_of_isNormal (h : IsNormal route) : normalize route = route := by
  by_cases hne : route = []
  · subst hne
    rfl
  · let plain : Decoration := ⟨[], [], .absent, [], [], [], [], [], by simp, by simp, by simp, by simp, by simp,
      by simp, by simp⟩
    have hplain : plain.text route = route := List.append_nil route
    have hroute := plain.normalize_text ⟨h, hne⟩
    rwa [hplain] at hroute

/-- A route from which nothing is taken is normal if it resulted from a text: each step leaves it as it is. -/
theorem isNormal_of_normalize (h : normalize (normalize raw) = normalize raw) : IsNormal (normalize raw) := by
  have htaken := normalize_sublist_trimStart (normalize raw)
  rw [h] at htaken
  have hslash : trimStart isSlash (trim isEdgeJunk (normalize raw)) = normalize raw :=
    ((trimStart_sublist _ _).trans (trim_sublist _ _)).antisymm htaken
  have hjunk : trim isEdgeJunk (normalize raw) = normalize raw :=
    (trim_sublist _ _).antisymm (htaken.trans (trimStart_sublist _ _))
  refine ⟨hash_not_mem_normalize raw, fun hhead => ?_, ?_⟩
  · have hnot := head?_trimStart isSlash (trim isEdgeJunk (normalize raw)) '/'
    rw [hslash] at hnot
    exact absurd (hnot hhead) (by decide)
  · refine isTrimmed_isEdge ?_ (isTrimmed_normalize raw)
    rw [← hjunk]
    exact isTrimmed_trim _ _

theorem normalize_normalize_eq_iff (raw : List Char) :
    normalize (normalize raw) = normalize raw ↔ IsNormal (normalize raw) :=
  ⟨isNormal_of_normalize, normalize_of_isNormal⟩

theorem isNormal_of_bared (h : IsTrimmed isEdge (bared raw)) : IsNormal (normalize raw) := by
  have hkept : normalize raw = bared raw := trim_of_isTrimmed (h.mono fun _ => isEdge_of_isBlank)
  refine ⟨hash_not_mem_normalize raw, ?_, by rwa [hkept]⟩
  rw [hkept]
  intro hhead
  have hbare : '/' ∈ (trimStart isSlash (dropHashMarker (trimStart isSlash (trim isEdgeJunk raw)))).head? := by
    rw [bared, dropFragment, List.head?_takeWhile, Option.filter_eq_some_iff] at hhead
    exact hhead.1
  exact absurd (head?_trimStart isSlash _ '/' hbare) (by decide)

theorem length_normalize_lt (h : normalize raw ≠ raw) : (normalize raw).length < raw.length := by
  refine lt_of_le_of_ne (normalize_sublist raw).length_le fun hlength => ?_
  exact h ((normalize_sublist raw).eq_of_length hlength)

/-- What is normalized again and again becomes normal: until then it gets shorter each time. -/
theorem exists_isNormal_iterate (raw : List Char) :
    ∃ n ≤ raw.length, IsNormal (normalize^[n] (normalize raw)) := by
  induction hlength : raw.length using Nat.strong_induction_on generalizing raw with
  | _ length ih =>
    subst hlength
    by_cases hraw : normalize raw = raw
    · exact ⟨0, Nat.zero_le _, isNormal_of_normalize (by rw [hraw, hraw])⟩
    · have hlt := length_normalize_lt hraw
      obtain ⟨n, hn, hnormal⟩ := ih _ hlt (normalize raw) rfl
      exact ⟨n + 1, by omega, hnormal⟩

/-- A route has no number sign and no blanks at its ends. Normalizing it again changes nothing just if it begins
neither with a slash nor with a quote and ends in no quote, in particular if the text laid bare has neither
quotes nor blanks at its ends; and when that is repeated, it ends in such a route. -/
theorem normalize_normalize (raw : List Char) :
    '#' ∉ normalize raw ∧ IsTrimmed Text.isBlank (normalize raw) ∧
      (normalize (normalize raw) = normalize raw ↔ IsNormal (normalize raw)) ∧
      (IsTrimmed isEdge (bared raw) → IsNormal (normalize raw)) ∧
      ∃ n ≤ raw.length, IsNormal (normalize^[n] (normalize raw)) :=
  ⟨hash_not_mem_normalize raw, isTrimmed_normalize raw, normalize_normalize_eq_iff raw, isNormal_of_bared,
    exists_isNormal_iterate raw⟩

theorem normalize_normalize_dailyReports :
    IsTrimmed isEdge (bared "/#/it's/daily#top".toList) ∧ IsNormal (normalize "/#/it's/daily#top".toList) := by
  have h : IsTrimmed isEdge (bared "/#/it's/daily#top".toList) := by decide
  exact ⟨h, (normalize_normalize _).2.2.2.1 h⟩

/-- A slash behind a blank, a quote behind a slash and a quote in front of a fragment stay: the routes of two texts
may differ that are the same when normalized again. -/
theorem normalize_slash_blank_ne :
    normalize (normalize "/ /a".toList) ≠ normalize "/ /a".toList ∧
      (normalize "/ /a".toList).head? = some '/' ∧ (normalize "/'a".toList).head? = some '\'' ∧
      (normalize "a'#b".toList).getLast? = some '\'' ∧
      normalize (normalize "/ /a".toList) = normalize (normalize "/'a".toList) ∧
      normalize "/ /a".toList ≠ normalize "/'a".toList := by
  decide

end RouteInventory.Reference
