import LineSpec.Proofs.Spec.Fault
import LineSpec.Proofs.Spec.Succession
import LineSpec.Spec.Printer
/-!
# Reading what was written

Items that are written one after the other are read back as they were, each with the numbers of the
lines that it was written in (`parse_print`). What has to hold for that is said of one parameter and
one literal at a time (`Item.Writable`): no line may be taken for one of another kind, and nothing
at the ends of a key, a value or a line may get lost. Between two items it is enough that the first
one ends with its body and the second one begins with a parameter (`Document.Writable`).
-/

namespace LineSpec

open Token (isMarkerLine ofLinesFrom)

/-! ## What can be written -/

/-- Conventions under which items can be written: the markers are lines, or begin lines, and the
skip marker is not taken for a parameter. -/
structure Conventions.Writable (c : Conventions) : Prop where
  item : ('\n' : CodePoint) ∉ c.item
  skip : c.skip.IsLine
  skip_noMarker : isMarkerLine c c.skip = false

/-- An item that can be written. -/
structure Item.Writable (c : Conventions) (item : Item) : Prop where
  keys : ∀ p ∈ item.params, p.1 ≠ [] ∧ Text.trim p.1 = p.1 ∧ (':' : CodePoint) ∉ p.1 ∧
    ('\n' : CodePoint) ∉ p.1
  distinct : item.params.names.Nodup
  values : ∀ p ∈ item.params, Text.trim p.2 = p.2 ∧ ('\n' : CodePoint) ∉ p.2
  literals : ∀ e ∈ item.body, e.isSkip = false →
    e.text.IsLine ∧ isMarkerLine c e.text = false ∧ e.text ≠ c.skip

/-- Items that can be written one after the other: where one ends and another one begins, there is a
body before and a parameter behind. -/
structure Document.Writable (c : Conventions) (items : List Item) : Prop where
  each : ∀ item ∈ items, item.Writable c
  first : ∀ item ∈ items.head?, item.params ≠ [] ∨ item.body ≠ []
  later : ∀ item ∈ items.tail, item.params ≠ []
  body : ∀ item ∈ items.dropLast, item.body ≠ []

instance Conventions.decidableWritable (c : Conventions) : Decidable c.Writable :=
  decidable_of_iff
    (c.item.contains '\n' = false ∧ c.skip.IsLine ∧ isMarkerLine c c.skip = false)
    ⟨fun h => ⟨by simpa using h.1, h.2.1, h.2.2⟩,
      fun h => ⟨by simpa using h.item, h.skip, h.skip_noMarker⟩⟩

instance Item.decidableWritable (c : Conventions) (item : Item) : Decidable (item.Writable c) :=
  decidable_of_iff
    ((∀ p ∈ item.params, p.1 ≠ [] ∧ Text.trim p.1 = p.1 ∧ p.1.contains ':' = false ∧
        p.1.contains '\n' = false) ∧ item.params.names.Nodup ∧
      (∀ p ∈ item.params, Text.trim p.2 = p.2 ∧ p.2.contains '\n' = false) ∧
      ∀ e ∈ item.body, e.isSkip = false →
        e.text.IsLine ∧ isMarkerLine c e.text = false ∧ e.text ≠ c.skip)
    ⟨fun h => ⟨by simpa using h.1, h.2.1, by simpa using h.2.2.1, h.2.2.2⟩,
      fun h => ⟨by simpa using h.keys, h.distinct, by simpa using h.values, h.literals⟩⟩

instance Document.decidableWritable (c : Conventions) (items : List Item) :
    Decidable (Document.Writable c items) :=
  decidable_of_iff
    ((∀ item ∈ items, item.Writable c) ∧
      (∀ item ∈ items.head?, item.params ≠ [] ∨ item.body ≠ []) ∧
      (∀ item ∈ items.tail, item.params ≠ []) ∧ ∀ item ∈ items.dropLast, item.body ≠ [])
    ⟨fun h => ⟨h.1, h.2.1, h.2.2.1, h.2.2.2⟩, fun h => ⟨h.each, h.first, h.later, h.body⟩⟩

variable {c : Conventions} {source : Option Text}

/-! ## Parameters -/

namespace Item

theorem isMarkerLine_printParam (p : Text × Text) : isMarkerLine c (printParam c p) = true := by
  have hprint : printParam c p = c.item ++ (' ' : CodePoint) :: (p.1 ++ ": " ++ p.2) := by
    simp [printParam, Text.ofString, Text.ofChars]
  rw [hprint, isMarkerLine, List.drop_left, Bool.and_eq_true]
  have hblank : Text.isBlank (' ' : CodePoint) = true := by decide
  exact ⟨List.isPrefixOf_iff_prefix.2 (List.prefix_append _ _), hblank⟩

theorem isParam_printParam {p : Text × Text} (hkey : Text.trim p.1 = p.1)
    (hcolon : (':' : CodePoint) ∉ p.1) (hvalue : Text.trim p.2 = p.2) :
    IsParam c (printParam c p) p := by
  have hblank : ∀ ch ∈ ([(' ' : CodePoint)] : Text), Text.isBlank ch = true := by
    intro ch hch
    rw [List.mem_singleton.1 hch]
    decide
  have htrim : ∀ t : Text, Text.trim ((' ' : CodePoint) :: t) = Text.trim t := fun t => by
    have h : Text.trim ([(' ' : CodePoint)] ++ t ++ []) = Text.trim t :=
      Text.trim_append_of_blank hblank nofun
    rwa [List.append_nil] at h
  refine ⟨(' ' : CodePoint) :: p.1, (' ' : CodePoint) :: p.2, ?_, ?_, ?_⟩
  · simp [printParam, Text.ofString, Text.ofChars]
  · simpa using ⟨by decide, hcolon⟩
  · rw [htrim, htrim, hkey, hvalue]

/-- The parameters of an item are read back, behind those that are read already. -/
theorem foldlM_addParam_print {params before : Bindings Text} (n : Nat)
    (hkeys : ∀ p ∈ params, p.1 ≠ [] ∧ Text.trim p.1 = p.1 ∧ (':' : CodePoint) ∉ p.1 ∧
      ('\n' : CodePoint) ∉ p.1)
    (hvalues : ∀ p ∈ params, Text.trim p.2 = p.2 ∧ ('\n' : CodePoint) ∉ p.2)
    (hdistinct : Assoc.names (before ++ params) |>.Nodup) :
    (ofLinesFrom c n (params.map (printParam c))).foldlM (addParam c source) before =
      .ok (before ++ params) := by
  induction params generalizing before n with
  | nil =>
    rw [List.append_nil]
    rfl
  | cons p params ih =>
    rw [List.forall_mem_cons] at hkeys hvalues
    obtain ⟨⟨hne, hkey, hcolon, -⟩, hkeys⟩ := hkeys
    obtain ⟨⟨hvalue, -⟩, hvalues⟩ := hvalues
    have hread : paramOfLine c (printParam c p) = .ok p :=
      (paramOfLine_eq_ok_iff (isMarkerLine_printParam p)).2
        ⟨isParam_printParam hkey hcolon hvalue, hne⟩
    have hnew : ¬(Assoc.get? before p.1).isSome := by
      rw [Assoc.isSome_get?_iff]
      intro hmem
      rw [Assoc.names, List.map_append, List.nodup_append] at hdistinct
      exact hdistinct.2.2 _ hmem p.1 (by simp) rfl
    have hadd : ∀ m kind, addParam c source before ⟨kind, printParam c p, m⟩ =
        .ok (before ++ [p]) := by
      intro m kind
      rw [addParam, hread]
      exact if_neg hnew
    have happend : before ++ p :: params = before ++ [p] ++ params := by simp
    rw [List.map_cons, Token.ofLinesFrom_cons, List.foldlM_cons, hadd, happend]
    rw [happend] at hdistinct
    exact ih (n + 1) hkeys hvalues hdistinct

/-! ## Bodies -/

theorem isMarkerLine_entry (hc : c.Writable) {item : Item} (h : item.Writable c) {e : Entry}
    (he : e ∈ item.body) : isMarkerLine c (e.print c) = false := by
  cases e with
  | literal text line => exact (h.literals _ he rfl).2.1
  | skip line => exact hc.skip_noMarker

theorem ofLine_entry {item : Item} (h : item.Writable c) {e : Entry} (he : e ∈ item.body)
    (n : Nat) : Entry.ofLine c (e.print c) n = e.placedAt n := by
  cases e with
  | literal text line => exact if_neg (h.literals _ he rfl).2.2
  | skip line => exact if_pos rfl

theorem map_entryOfToken_print (hc : c.Writable) {item : Item} (h : item.Writable c) (n : Nat)
    {body : Body} (hbody : ∀ e ∈ body, e ∈ item.body) :
    (ofLinesFrom c n (body.map (Entry.print c))).map entryOfToken =
      (body.zipIdx n).map fun e => e.1.placedAt e.2 := by
  induction body generalizing n with
  | nil => rfl
  | cons e body ih =>
    rw [List.forall_mem_cons] at hbody
    rw [List.map_cons, Token.ofLinesFrom_cons, List.map_cons, List.zipIdx_cons, List.map_cons,
      entryOfToken_eq (isMarkerLine_entry hc h hbody.1), ofLine_entry h hbody.1,
      ih (n + 1) hbody.2]

/-! ## One item -/

/-- The parameter lines of an item, and the lines after them. -/
theorem takeWhile_print (hc : c.Writable) {item : Item} (h : item.Writable c) :
    (item.print c).takeWhile (isMarkerLine c) = item.params.map (printParam c) ∧
      (item.print c).dropWhile (isMarkerLine c) = item.body.map (Entry.print c) := by
  have hparams : ∀ l ∈ item.params.map (printParam c), isMarkerLine c l = true := by
    intro l hl
    obtain ⟨p, -, rfl⟩ := List.mem_map.1 hl
    exact isMarkerLine_printParam p
  have hbody : ∀ l ∈ (item.body.map (Entry.print c)).head?, ¬isMarkerLine c l = true := by
    intro l hl
    obtain ⟨e, he, rfl⟩ := List.mem_map.1 (List.mem_of_mem_head? hl)
    rw [isMarkerLine_entry hc h he]
    decide
  rw [print, List.takeWhile_append_of_pos hparams, List.dropWhile_append_of_pos hparams]
  cases hb : item.body.map (Entry.print c) with
  | nil => simp
  | cons l ls =>
    rw [hb] at hbody
    have hl := hbody l rfl
    rw [List.takeWhile_cons_of_neg hl, List.dropWhile_cons_of_neg hl, List.append_nil]
    exact ⟨rfl, rfl⟩

theorem ofTokens_print (hc : c.Writable) {item : Item} (h : item.Writable c)
    (hne : item.print c ≠ []) (n : Nat) :
    ofTokens c source (ofLinesFrom c n (item.print c)) = .ok (item.placedAt n) := by
  obtain ⟨htake, hdrop⟩ := takeWhile_print hc h
  have hline : ((ofLinesFrom c n (item.print c)).head?.map Token.line).getD 0 = n := by
    obtain ⟨l, ls, hls⟩ := List.exists_cons_of_ne_nil hne
    rw [hls, Token.ofLinesFrom_cons]
    rfl
  have hparams : (ofLinesFrom c n (item.params.map (printParam c))).foldlM (addParam c source) [] =
      .ok item.params := foldlM_addParam_print n h.keys h.values h.distinct
  rw [ofTokens, Token.takeWhile_ofLinesFrom, Token.dropWhile_ofLinesFrom, htake, hdrop,
    List.length_map, hparams, map_entryOfToken_print hc h _ fun _ => id, hline]
  rfl

/-- All lines of an item belong to one item. -/
theorem isChain_print (hc : c.Writable) {item : Item} (h : item.Writable c) (n : Nat) :
    (ofLinesFrom c n (item.print c)).IsChain fun t u => Document.sameItem t u = true := by
  rw [print, Token.ofLinesFrom_append]
  refine Document.isChain_sameItem_append (fun t ht => ?_) fun t ht => ?_
  · obtain ⟨p, -, hp⟩ := List.mem_map.1 (Token.text_mem_of_mem_ofLinesFrom ht)
    rw [Token.kind_of_mem_ofLinesFrom ht, ← beq_iff_eq, Token.classify_beq_marker, ← hp,
      isMarkerLine_printParam]
  · obtain ⟨e, he, hp⟩ := List.mem_map.1 (Token.text_mem_of_mem_ofLinesFrom ht)
    rw [Token.kind_of_mem_ofLinesFrom ht, ← bne_iff_ne, bne, Token.classify_beq_marker, ← hp,
      isMarkerLine_entry hc h he, Bool.not_false]

theorem itemsFrom_print (hc : c.Writable) {item : Item} (h : item.Writable c)
    (hne : item.params ≠ [] ∨ item.body ≠ []) (n : Nat) :
    Document.itemsFrom c source n (item.print c) = .ok [item.placedAt n] := by
  have hlines : item.print c ≠ [] := by
    simpa [print, imp_iff_not_or] using hne
  have htokens : ofLinesFrom c n (item.print c) ≠ [] := by
    intro hnil
    have hlength := Token.length_ofLinesFrom c n (item.print c)
    rw [hnil] at hlength
    exact hlines (List.eq_nil_of_length_eq_zero hlength.symm)
  rw [Document.itemsFrom, List.splitBy_of_isChain htokens (isChain_print hc h n), List.mapM_cons,
    ofTokens_print hc h hlines]
  rfl

/-- Each line of an item can be written with either end. -/
theorem ends_of_mem_print (hc : c.Writable) {item : Item} (h : item.Writable c) (e : Text.LineEnd) :
    ∀ l ∈ item.print c, e.Ends l := by
  intro l hl
  rcases List.mem_append.1 hl with hl | hl
  · obtain ⟨⟨key, value⟩, hp, rfl⟩ := List.mem_map.1 hl
    obtain ⟨-, -, -, hkey⟩ := h.keys _ hp
    obtain ⟨htrim, hvalue⟩ := h.values _ hp
    change Text.trim value = value at htrim
    constructor
    · have hcolon : ('\n' : CodePoint) ∉ (": " : Text) := by decide
      have hspace : ('\n' : CodePoint) ∉ (" " : Text) := by decide
      simp only [printParam, List.mem_append, not_or]
      exact ⟨⟨⟨⟨hc.item, hspace⟩, hkey⟩, hcolon⟩, hvalue⟩
    · intro _ hlast
      rw [printParam, List.getLast?_append] at hlast
      -- the line ends with the value or, for want of one, with the space before it
      cases hv : value.getLast? with
      | none =>
        rw [hv, Option.none_or, List.getLast?_append_of_ne_nil _ (by decide)] at hlast
        exact absurd hlast (by decide)
      | some ch =>
        rw [hv] at hlast
        obtain rfl := Option.some.inj hlast
        rw [← htrim] at hv
        exact absurd (Text.isBlank_of_mem_getLast?_trim _ hv) (by decide)
  · obtain ⟨e', he', rfl⟩ := List.mem_map.1 hl
    cases e' with
    | literal text line => exact .of_isLine (h.literals _ he' rfl).1 e
    | skip line => exact .of_isLine hc.skip e

end Item

/-! ## All items -/

namespace Document

theorem Writable.of_cons {item : Item} {items : List Item} (h : Writable c (item :: items)) :
    Writable c items where
  each i hi := h.each i (List.mem_cons_of_mem _ hi)
  first i hi := Or.inl (h.later i (List.mem_of_mem_head? hi))
  later i hi := h.later i (List.mem_of_mem_tail hi)
  body i hi := by
    have hne : items ≠ [] := by
      rintro rfl
      cases hi
    refine h.body i ?_
    rw [List.dropLast_cons_of_ne_nil hne]
    exact List.mem_cons_of_mem _ hi

/-- Items in a row are read one after the other. -/
theorem itemsFrom_flatMap_print (hc : c.Writable) {items : List Item} (h : Writable c items)
    (n : Nat) : itemsFrom c source n (items.flatMap (Item.print c)) = .ok (placedFrom n items) := by
  induction items generalizing n with
  | nil => rfl
  | cons item items ih =>
    have hitem := h.each item List.mem_cons_self
    have hread : itemsFrom c source n (item.print c) = .ok [item.placedAt n] :=
      Item.itemsFrom_print hc hitem (h.first item rfl) n
    have hsize : (item.print c).length = item.size := by
      rw [Item.print, List.length_append, List.length_map, List.length_map, Item.size]
    rw [List.flatMap_cons, placedFrom]
    cases items with
    | nil =>
      rw [List.flatMap_nil, List.append_nil, hread]
      rfl
    | cons next items =>
      have hlast : ∀ l ∈ (item.print c).getLast?, isMarkerLine c l = false := by
        have hbody : item.body.map (Entry.print c) ≠ [] :=
          mt List.map_eq_nil_iff.1 (h.body item List.mem_cons_self)
        intro l hl
        rw [Item.print, List.getLast?_append_of_ne_nil _ hbody] at hl
        obtain ⟨e, he, rfl⟩ := List.mem_map.1 (List.mem_of_getLast? hl)
        exact Item.isMarkerLine_entry hc hitem he
      have hhead : ∀ l ∈ ((next :: items).flatMap (Item.print c)).head?,
          isMarkerLine c l = true := by
        obtain ⟨p, ps, hps⟩ := List.exists_cons_of_ne_nil (h.later next List.mem_cons_self)
        intro l hl
        rw [List.flatMap_cons, Item.print, hps] at hl
        obtain rfl := Option.some.inj hl
        exact Item.isMarkerLine_printParam p
      rw [itemsFrom_append hlast hhead, hread, hsize, ih h.of_cons]
      rfl

/-- Items that were written are read back as they were, with the lines where they were written. -/
theorem parse_print (c : Conventions) (source : Option Text) (e : Text.LineEnd) (items : List Item)
    (hc : c.Writable) (h : Writable c items) :
    parse c source (print c e items) = .ok ⟨placedFrom 1 items, source⟩ := by
  have hlines : Text.lines (print c e items) = items.flatMap (Item.print c) := by
    rw [print, Text.lines_written, List.map_map]
    · exact List.map_id _
    · intro l hl
      obtain ⟨l', hl', rfl⟩ := List.mem_map.1 hl
      obtain ⟨item, hitem, hprint⟩ := List.mem_flatMap.1 hl'
      exact Item.ends_of_mem_print hc (h.each item hitem) e _ hprint
  rw [parse_eq_itemsFrom, hlines, itemsFrom_flatMap_print hc h]
  rfl

/-- Three items, the first without parameters and the last without a body. A value may be empty or
hold a colon, and a literal may be empty or begin like a marker. -/
theorem parse_print_three_items :
    Conventions.Writable {} ∧
    Writable {} [⟨[], [.literal "x" 0, .skip 0], 0⟩,
      ⟨[("k", "a:b"), ("l", "")], [.literal "##y" 0, .literal "" 0], 0⟩,
      ⟨[("k", "c")], [], 0⟩] ∧
    print {} .returnFeed [⟨[], [.literal "x" 0, .skip 0], 0⟩,
        ⟨[("k", "a:b"), ("l", "")], [.literal "##y" 0, .literal "" 0], 0⟩,
        ⟨[("k", "c")], [], 0⟩] =
      "x\r\n..\r\n## k: a:b\r\n## l: \r\n##y\r\n\r\n## k: c\r\n" ∧
    parse {} none "x\r\n..\r\n## k: a:b\r\n## l: \r\n##y\r\n\r\n## k: c\r\n" =
      .ok ⟨[⟨[], [.literal "x" 1, .skip 2], 1⟩,
        ⟨[("k", "a:b"), ("l", "")], [.literal "##y" 5, .literal "" 6], 3⟩,
        ⟨[("k", "c")], [], 7⟩], none⟩ := by
  have hc : Conventions.Writable {} := by decide +kernel
  have h : Writable {} [⟨[], [.literal "x" 0, .skip 0], 0⟩,
      ⟨[("k", "a:b"), ("l", "")], [.literal "##y" 0, .literal "" 0], 0⟩,
      ⟨[("k", "c")], [], 0⟩] := by decide +kernel
  have hprint : print {} .returnFeed [⟨[], [.literal "x" 0, .skip 0], 0⟩,
      ⟨[("k", "a:b"), ("l", "")], [.literal "##y" 0, .literal "" 0], 0⟩,
      ⟨[("k", "c")], [], 0⟩] =
    "x\r\n..\r\n## k: a:b\r\n## l: \r\n##y\r\n\r\n## k: c\r\n" := by decide +kernel
  have hparse := parse_print {} none .returnFeed _ hc h
  rw [hprint] at hparse
  exact ⟨hc, h, hprint, hparse⟩

end Document

end LineSpec
