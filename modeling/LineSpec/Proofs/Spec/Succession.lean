import LineSpec.Proofs.Spec.Partition
import LineSpec.Proofs.Text.Written
/-!
# Specifications one after the other

A parameter line behind a line of another kind opens an item, whatever stands before it. So where a
specification ends with such a line and another one begins with a parameter line, the two texts in a
row are read as the one and then the other (`parse_append`): the items of both, or the error of the
first that has one. Only the lines of the second are counted on from where the first ended.

Reading looks at the number of a line nowhere, it only hands it on. That is what the lemmas on
`shift` say, for a parameter line, an item and a list of items.
-/

namespace LineSpec

open Token (isMarkerLine ofLinesFrom)

/-! ## More lines before a specification -/

/-- The token `t` when `n` more lines stand before the specification. -/
def Token.shift (n : Nat) (t : Token) : Token :=
  { t with line := n + t.line }

/-- The error `e` when `n` more lines stand before the specification. -/
def ParseError.shift (n : Nat) (e : ParseError) : ParseError :=
  { e with number := n + e.number }

/-- The entry `e` when `n` more lines stand before the specification. -/
def Entry.shift (n : Nat) : Entry → Entry
  | .literal text line => .literal text (n + line)
  | .skip line => .skip (n + line)

/-- The item `i` when `n` more lines stand before the specification. -/
def Item.shift (n : Nat) (i : Item) : Item :=
  { i with body := i.body.map (Entry.shift n), line := n + i.line }

theorem Token.ofLinesFrom_add (c : Conventions) (n m : Nat) (ls : List Text) :
    ofLinesFrom c (n + m) ls = (ofLinesFrom c m ls).map (shift n) := by
  induction ls generalizing m with
  | nil => rfl
  | cons l ls ih =>
    rw [ofLinesFrom_cons, ofLinesFrom_cons, List.map_cons, ← ih, Nat.add_assoc]
    simp [shift]

namespace Item

variable {c : Conventions} {source : Option Text} {n : Nat}

theorem entryOfToken_shift (t : Token) : entryOfToken (t.shift n) = (entryOfToken t).shift n := by
  obtain ⟨kind, text, line⟩ := t
  cases kind <;> rfl

theorem addParam_shift (params : Bindings Text) (t : Token) :
    addParam c source params (t.shift n) =
      (addParam c source params t).mapError (ParseError.shift n) := by
  have htext : (t.shift n).text = t.text := rfl
  simp only [addParam, htext]
  cases paramOfLine c t.text with
  | error cause => rfl
  | ok p =>
    dsimp only
    split <;> rfl

theorem foldlM_addParam_shift (params : Bindings Text) (ts : List Token) :
    (ts.map (Token.shift n)).foldlM (addParam c source) params =
      (ts.foldlM (addParam c source) params).mapError (ParseError.shift n) := by
  induction ts generalizing params with
  | nil => rfl
  | cons t ts ih =>
    rw [List.map_cons, List.foldlM_cons, List.foldlM_cons, addParam_shift]
    cases addParam c source params t with
    | error e => rfl
    | ok params' => exact ih params'

/-- An item that stands further down is the same item, with its lines counted on. -/
theorem ofTokens_shift {ts : List Token} (hne : ts ≠ []) :
    ofTokens c source (ts.map (Token.shift n)) =
      ((ofTokens c source ts).map (shift n)).mapError (ParseError.shift n) := by
  have hkind : (fun t : Token => t.kind == .marker) ∘ Token.shift n = (·.kind == .marker) := rfl
  rw [ofTokens, ofTokens, List.takeWhile_map, List.dropWhile_map, hkind, foldlM_addParam_shift]
  cases (ts.takeWhile (·.kind == .marker)).foldlM (addParam c source) [] with
  | error e => rfl
  | ok params =>
    obtain ⟨t, ts, rfl⟩ := List.exists_cons_of_ne_nil hne
    change Except.ok (Item.mk _ _ _) = Except.ok (Item.mk _ _ _)
    rw [List.map_map, List.map_map]
    exact congrArg (Except.ok <| Item.mk params · _)
      (List.map_congr_left fun u _ => entryOfToken_shift u)

end Item

namespace Document

variable {c : Conventions} {source : Option Text}

/-! ## The items that lines make up -/

/-- The items that the lines `ls` make up, which are numbered from `n`. -/
def itemsFrom (c : Conventions) (source : Option Text) (n : Nat) (ls : List Text) :
    Except ParseError (List Item) :=
  ((ofLinesFrom c n ls).splitBy sameItem).mapM (Item.ofTokens c source)

theorem parse_eq_itemsFrom (t : Text) :
    parse c source t = (itemsFrom c source 1 (Text.lines t)).map (⟨·, source⟩) := by
  rw [parse, ofTokens, takeWhile_ofText]
  rfl

/-- Lines are cut in the same way wherever they stand. -/
theorem splitBy_shift (n : Nat) (ts : List Token) :
    (ts.map (Token.shift n)).splitBy sameItem =
      (ts.splitBy sameItem).map (List.map (Token.shift n)) := by
  rw [List.splitBy_eq_iff]
  refine ⟨?_, ?_, ?_, ?_⟩
  · rw [← List.map_flatten, List.flatten_splitBy]
  · intro hnil
    obtain ⟨us, hus, hempty⟩ := List.mem_map.1 hnil
    exact List.ne_nil_of_mem_splitBy hus (List.map_eq_nil_iff.1 hempty)
  · intro vs hvs
    obtain ⟨us, hus, rfl⟩ := List.mem_map.1 hvs
    exact (List.isChain_map _).2 (List.isChain_of_mem_splitBy hus)
  · refine (List.isChain_map _).2 ((List.isChain_getLast_head_splitBy sameItem ts).imp ?_)
    rintro us vs ⟨hus, hvs, hcut⟩
    refine ⟨mt List.map_eq_nil_iff.1 hus, mt List.map_eq_nil_iff.1 hvs, ?_⟩
    rw [List.getLast_map, List.head_map]
    exact hcut

theorem mapM_ofTokens_shift {n : Nat} {tss : List (List Token)} (hne : [] ∉ tss) :
    (tss.map (List.map (Token.shift n))).mapM (Item.ofTokens c source) =
      ((tss.mapM (Item.ofTokens c source)).map (List.map (Item.shift n))).mapError
        (ParseError.shift n) := by
  induction tss with
  | nil => rfl
  | cons ts tss ih =>
    rw [List.mem_cons, not_or] at hne
    rw [List.map_cons, List.mapM_cons, List.mapM_cons, Item.ofTokens_shift (Ne.symm hne.1),
      ih hne.2]
    cases Item.ofTokens c source ts with
    | error e => rfl
    | ok item => cases tss.mapM (Item.ofTokens c source) <;> rfl

/-- Lines that stand further down make up the same items, with their lines counted on. -/
theorem itemsFrom_add (n m : Nat) (ls : List Text) :
    itemsFrom c source (n + m) ls =
      ((itemsFrom c source m ls).map (List.map (Item.shift n))).mapError (ParseError.shift n) := by
  rw [itemsFrom, Token.ofLinesFrom_add, splitBy_shift,
    mapM_ofTokens_shift (List.nil_notMem_splitBy _ _), itemsFrom]

/-- Where the one lines end with no parameter line and the others begin with one, the items are
those of the one and then those of the others. -/
theorem itemsFrom_append {n : Nat} {ls ls' : List Text}
    (hlast : ∀ l ∈ ls.getLast?, isMarkerLine c l = false)
    (hhead : ∀ l ∈ ls'.head?, isMarkerLine c l = true) :
    itemsFrom c source n (ls ++ ls') =
      (itemsFrom c source n ls).bind fun items =>
        (itemsFrom c source (n + ls.length) ls').map (items ++ ·) := by
  have hcut : ∀ t ∈ (ofLinesFrom c n ls).getLast?,
      ∀ u ∈ (ofLinesFrom c (n + ls.length) ls').head?, sameItem t u = false := by
    intro t ht u hu
    obtain ⟨p, hp, rfl⟩ := Option.map_eq_some_iff.1 (List.getLast?_map.symm.trans ht)
    obtain ⟨q, hq, rfl⟩ := Option.map_eq_some_iff.1 (List.head?_map.symm.trans hu)
    have hp' : p.1 ∈ ls.getLast? := by
      rw [← List.zipIdx_map_fst n ls, List.getLast?_map, hp]
      rfl
    have hq' : q.1 ∈ ls'.head? := by
      rw [← List.zipIdx_map_fst (n + ls.length) ls', List.head?_map, hq]
      rfl
    rw [sameItem_classify, hlast _ hp', hhead _ hq']
    rfl
  rw [itemsFrom, Token.ofLinesFrom_append, List.splitBy_append hcut, List.mapM_append]
  rfl

/-! ## Two specifications -/

/-- Two specifications in a row, where the first ends with a whole line that holds no parameter and
the second begins with a parameter line, are read one after the other. An error in the first is the
error of both, and so is one in the second if there is none in the first; its line, and those of the
second's items, are counted on from the lines of the first. -/
theorem parse_append (c : Conventions) (source : Option Text) (a b : Text)
    (ha : a = [] ∨ a.getLast? = some ('\n' : CodePoint) ∧
      ∀ l ∈ (Text.lines a).getLast?, isMarkerLine c l = false)
    (hb : ∃ l ∈ (Text.lines b).head?, isMarkerLine c l = true) :
    parse c source (a ++ b) =
      match parse c source a, parse c source b with
      | .error e, _ => .error e
      | .ok _, .error e => .error (e.shift (Text.lines a).length)
      | .ok d, .ok d' =>
        .ok ⟨d.items ++ d'.items.map (Item.shift (Text.lines a).length), source⟩ := by
  have hlines : Text.lines (a ++ b) = Text.lines a ++ Text.lines b :=
    Text.lines_append (ha.imp_right And.left) b
  have hlast : ∀ l ∈ (Text.lines a).getLast?, isMarkerLine c l = false := by
    rcases ha with rfl | ⟨-, hlast⟩
    · intro l hl
      cases hl
    · exact hlast
  have hhead : ∀ l ∈ (Text.lines b).head?, isMarkerLine c l = true := by
    obtain ⟨l, hl, hm⟩ := hb
    intro l' hl'
    obtain rfl := Option.some.inj (hl.symm.trans hl')
    exact hm
  rw [parse_eq_itemsFrom, parse_eq_itemsFrom, parse_eq_itemsFrom, hlines,
    itemsFrom_append hlast hhead, Nat.add_comm, itemsFrom_add]
  cases itemsFrom c source 1 (Text.lines a) with
  | error e => rfl
  | ok items => cases itemsFrom c source 1 (Text.lines b) <;> rfl

/-- Behind two lines, an item that stands there and a line that is wrong there. -/
theorem parse_append_two_lines :
    parse {} none ("## k: 1\nx\n" ++ "## k: 2\r\n..\r\ny") =
        .ok ⟨[⟨[("k", "1")], [.literal "x" 2], 1⟩,
          ⟨[("k", "2")], [.skip 4, .literal "y" 5], 3⟩], none⟩ ∧
      parse {} none ("## k: 1\nx\n" ++ "##\n") = .error ⟨.noParameter, 3, "##", none⟩ := by
  have ha : ("## k: 1\nx\n" : Text) = [] ∨
      ("## k: 1\nx\n" : Text).getLast? = some ('\n' : CodePoint) ∧
        ∀ l ∈ (Text.lines "## k: 1\nx\n").getLast?, isMarkerLine {} l = false := by
    decide +kernel
  refine ⟨(parse_append {} none _ _ ha ⟨"## k: 2", by decide +kernel⟩).trans ?_,
    (parse_append {} none _ _ ha ⟨"##", by decide +kernel⟩).trans ?_⟩
  · decide +kernel
  · decide +kernel

end Document

end LineSpec
