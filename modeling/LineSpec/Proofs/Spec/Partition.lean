import LineSpec.Proofs.Spec.Parts
import LineSpec.Proofs.Steps
import LineSpec.Proofs.Text.Cutting
import Mathlib.Data.List.SplitBy
/-!
# The lines of a document

A document that was read from a text accounts for each line of the text once, in order. The lines
are cut into parts, a new one at the first line and at each parameter line that follows a line of
another kind (`Document.Partition`), and each part makes up one item: the parameter lines at its
beginning give the parameters and every line after them one entry of the body, with its number
(`Item.MadeOf`).

Reading cuts the tokens and not the lines. That the two cuts are the same is carried by
`Token.eq_ofLinesFrom_of_flatten`: the tokens of a part are those of its lines, numbered from where
the part begins.
-/

namespace LineSpec

open Token (isMarkerLine ofLinesFrom)
open Parts (offset)

/-! ## What a document should be -/

namespace Document

/-- An item begins at the first line and at each parameter line after a line of another kind. -/
def BeginsItem (c : Conventions) (ls : List Text) (i : Nat) : Prop :=
  ∃ l, ls[i]? = some l ∧
    (i = 0 ∨ isMarkerLine c l = true ∧ ∃ p, ls[i - 1]? = some p ∧ isMarkerLine c p = false)

/-- `Partition c ls parts` says that `parts` are the lines `ls`, cut where an item begins. -/
structure Partition (c : Conventions) (ls : List Text) (parts : List (List Text)) : Prop where
  flatten : parts.flatten = ls
  nonempty : [] ∉ parts
  begins : ∀ i, (∃ j < parts.length, i = offset parts j) ↔ BeginsItem c ls i

end Document

/-- The entry for the line with the number `n` of a specification. -/
def Entry.ofLine (c : Conventions) (l : Text) (n : Int) : Entry :=
  if l = c.skip then .skip n else .literal l n

@[simp] theorem Entry.line_ofLine (c : Conventions) (l : Text) (n : Int) :
    (Entry.ofLine c l n).line = n := by
  rw [Entry.ofLine]
  split <;> rfl

theorem Entry.ofLine_eq_literal_iff {c : Conventions} {l text : Text} {n line : Int} :
    Entry.ofLine c l n = .literal text line ↔ l ≠ c.skip ∧ l = text ∧ n = line := by
  rw [Entry.ofLine]
  split <;> simp_all

namespace Item

/-- A parameter line holds the key and the value around its first colon, trimmed. -/
def IsParam (c : Conventions) (line : Text) (p : Text × Text) : Prop :=
  ∃ key value, line = c.item ++ key ++ CodePoint.ofChar ':' :: value ∧
    CodePoint.ofChar ':' ∉ key ∧ p = (Text.trim key, Text.trim value)

/-- `MadeOf c n part item` says that the lines `part`, which come after `n` others, make up
`item`. -/
structure MadeOf (c : Conventions) (n : Nat) (part : List Text) (item : Item) : Prop where
  line : item.line = (n + 1 : Nat)
  params : List.Forall₂ (IsParam c) (part.takeWhile (isMarkerLine c)) item.params
  body : item.body =
    ((part.dropWhile (isMarkerLine c)).zipIdx
      (n + 1 + (part.takeWhile (isMarkerLine c)).length)).map fun p => Entry.ofLine c p.1 p.2
  noMarker : ∀ l ∈ part.dropWhile (isMarkerLine c), isMarkerLine c l = false

/-- An item has parameters or a body when its part has lines. -/
theorem MadeOf.params_or_body {c : Conventions} {n : Nat} {part : List Text} {item : Item}
    (h : MadeOf c n part item) (hne : part ≠ []) : item.params ≠ [] ∨ item.body ≠ [] := by
  by_contra hno
  rw [not_or, not_not, not_not] at hno
  have hparams := h.params
  have hbody := h.body
  rw [hno.1, List.forall₂_nil_right_iff] at hparams
  rw [hno.2, eq_comm, List.map_eq_nil_iff, List.zipIdx_eq_nil_iff] at hbody
  have hpart := @List.takeWhile_append_dropWhile _ (isMarkerLine c) part
  rw [hparams, hbody] at hpart
  exact hne hpart.symm

end Item

/-- `d.Accounts c ls parts` says that `parts` are the parts of the lines `ls` and that the items of
`d` are what they make up, one each and in order. -/
structure Document.Accounts (c : Conventions) (ls : List Text) (d : Document)
    (parts : List (List Text)) : Prop where
  partition : Partition c ls parts
  length_eq : d.items.length = parts.length
  items : ∀ (j : Nat) (part : List Text) (item : Item), parts[j]? = some part →
    d.items[j]? = some item → item.MadeOf c (offset parts j) part

/-! ## Parameters -/

namespace Item

theorem eq_item_append_of_isMarkerLine {c : Conventions} {line : Text}
    (h : isMarkerLine c line = true) : line = c.item ++ line.drop c.item.length := by
  rw [isMarkerLine, Bool.and_eq_true, List.isPrefixOf_iff_prefix] at h
  exact (List.prefix_iff_eq_append.1 h.1).symm

/-- The line was trimmed before it was cut, which leaves the trimmed parts the same. -/
theorem isParam_of_splitAt? {c : Conventions} {line key value : Text}
    (hm : isMarkerLine c line = true)
    (h : Text.splitAt? (Text.trim (line.drop c.item.length)) (CodePoint.ofChar ':') =
      some (key, value)) : IsParam c line (Text.trim key, Text.trim value) := by
  obtain ⟨key', value', hline, hmem, hkey, hvalue⟩ := Text.exists_splitAt?_of_trim (by decide) h
  refine ⟨key', value', ?_, hmem, ?_⟩
  · rw [List.append_assoc, ← hline]
    exact eq_item_append_of_isMarkerLine hm
  · rw [hkey, hvalue]

/-- A parameter line that can be read has a colon behind the marker, and a key before it. -/
theorem drop_eq_of_paramOfLine {c : Conventions} {line : Text} {p : Text × Text}
    (h : paramOfLine c line = .ok p) :
    ∃ key value, line.drop c.item.length = key ++ CodePoint.ofChar ':' :: value ∧
      CodePoint.ofChar ':' ∉ key ∧ p = (Text.trim key, Text.trim value) ∧ p.1 ≠ [] := by
  simp only [paramOfLine] at h
  split at h
  · cases h
  · split at h
    · cases h
    · next hcut =>
      split at h
      · cases h
      · next hkey =>
        obtain rfl := Except.ok.inj h
        obtain ⟨key', value', hdrop, hmem, htrimKey, htrimValue⟩ :=
          Text.exists_splitAt?_of_trim (by decide) hcut
        rw [List.isEmpty_iff] at hkey
        exact ⟨key', value', hdrop, hmem, by rw [htrimKey, htrimValue], hkey⟩

theorem isParam_of_paramOfLine {c : Conventions} {line : Text} {p : Text × Text}
    (hm : isMarkerLine c line = true) (h : paramOfLine c line = .ok p) : IsParam c line p := by
  obtain ⟨key, value, hdrop, hmem, hp, -⟩ := drop_eq_of_paramOfLine h
  refine ⟨key, value, ?_, hmem, hp⟩
  rw [List.append_assoc, ← hdrop]
  exact eq_item_append_of_isMarkerLine hm

theorem addParam_eq_ok {c : Conventions} {source : Option Text} {params params' : Bindings Text}
    {t : Token} (h : addParam c source params t = .ok params') :
    ∃ p, paramOfLine c t.text = .ok p ∧ p.1 ∉ params.names ∧ params' = params ++ [p] := by
  rw [addParam] at h
  split at h
  · cases h
  · next key value hp =>
    split at h
    · cases h
    · next hnew =>
      rw [Assoc.isSome_get?_iff] at hnew
      exact ⟨(key, value), hp, hnew, (Except.ok.inj h).symm⟩

/-- No key is given twice. -/
theorem nodup_of_foldlM_addParam {c : Conventions} {source : Option Text} {ts : List Token}
    {params : Bindings Text} (h : ts.foldlM (addParam c source) [] = .ok params) :
    params.names.Nodup := by
  refine foldlM_keeps (P := fun params : Bindings Text => params.names.Nodup)
    (fun params t params' hparams hadd => ?_) Assoc.nodup_names_nil h
  obtain ⟨p, -, hnew, rfl⟩ := addParam_eq_ok hadd
  rw [Assoc.names, List.map_append, List.nodup_append]
  refine ⟨hparams, List.pairwise_singleton _ _, fun key hkey key' hkey' => ?_⟩
  obtain rfl := List.mem_singleton.1 hkey'
  exact ne_of_mem_of_not_mem hkey hnew

/-- The parameters of an item are those of its parameter lines, in order. -/
theorem foldlM_addParam_eq_ok {c : Conventions} {source : Option Text} {ts : List Token}
    {params params' : Bindings Text} (h : ts.foldlM (addParam c source) params = .ok params') :
    ∃ new, params' = params ++ new ∧
      List.Forall₂ (fun t p => paramOfLine c t.text = .ok p) ts new := by
  induction ts generalizing params with
  | nil => exact ⟨[], by rw [List.append_nil]; exact (Except.ok.inj h).symm, .nil⟩
  | cons t ts ih =>
    rw [List.foldlM_cons] at h
    cases ha : addParam c source params t with
    | error e =>
      rw [ha] at h
      cases h
    | ok params₁ =>
      rw [ha] at h
      obtain ⟨p, hp, -, rfl⟩ := addParam_eq_ok ha
      obtain ⟨new, rfl, hnew⟩ := ih h
      exact ⟨p :: new, by simp, .cons hp hnew⟩

theorem forall₂_isParam_of_foldlM {c : Conventions} {source : Option Text} {n : Nat}
    {ls : List Text} {params : Bindings Text} (hm : ∀ l ∈ ls, isMarkerLine c l = true)
    (h : (ofLinesFrom c n ls).foldlM (addParam c source) [] = .ok params) :
    List.Forall₂ (IsParam c) ls params := by
  obtain ⟨params', hparams, hnew⟩ := foldlM_addParam_eq_ok h
  rw [List.nil_append] at hparams
  subst hparams
  have hlines : List.Forall₂ (fun l p => paramOfLine c l = .ok p) ls params := by
    rw [← Token.map_text_ofLinesFrom c n ls, List.forall₂_map_left_iff]
    exact hnew
  exact ((List.forall₂_and_left _ _).2 ⟨hm, hlines⟩).imp fun l p hlp =>
    isParam_of_paramOfLine hlp.1 hlp.2

/-! ## One item -/

theorem entryOfToken_eq {c : Conventions} {l : Text} (h : isMarkerLine c l = false) (n : Int) :
    entryOfToken ⟨Token.classify c l, l, n⟩ = Entry.ofLine c l n := by
  rw [Token.classify_of_not_isMarkerLine h, Entry.ofLine]
  split <;> rfl

/-- The tokens of a part make up the item that its lines make up. -/
theorem madeOf_of_ofTokens {c : Conventions} {source : Option Text} {n : Nat} {part : List Text}
    {item : Item} (hne : part ≠ [])
    (hpart : part.IsChain fun l l' => isMarkerLine c l' = true → isMarkerLine c l = true)
    (h : ofTokens c source (ofLinesFrom c (n + 1) part) = .ok item) : item.MadeOf c n part := by
  -- a parameter line behind another line would begin a new part
  have hno := Parts.eq_false_of_mem_dropWhile hpart
  rw [ofTokens, Token.takeWhile_ofLinesFrom, Token.dropWhile_ofLinesFrom] at h
  cases hp : (ofLinesFrom c (n + 1) (part.takeWhile (isMarkerLine c))).foldlM
      (addParam c source) [] with
  | error e =>
    rw [hp] at h
    cases h
  | ok params =>
    rw [hp] at h
    obtain rfl := Except.ok.inj h
    refine ⟨?_, ?_, ?_, hno⟩
    · -- the first token has the number of the item
      obtain ⟨l, ls, rfl⟩ := List.exists_cons_of_ne_nil hne
      rw [Token.ofLinesFrom_cons]
      rfl
    · exact forall₂_isParam_of_foldlM (fun l hl => List.mem_takeWhile_imp hl) hp
    · rw [ofLinesFrom, List.map_map]
      refine List.map_congr_left fun p hp => ?_
      exact entryOfToken_eq (hno p.1 (List.fst_mem_of_mem_zipIdx hp)) _

end Item

/-! ## The cut -/

namespace Document

theorem sameItem_classify {c : Conventions} {l l' : Text} {n n' : Int} :
    sameItem ⟨Token.classify c l, l, n⟩ ⟨Token.classify c l', l', n'⟩ =
      (isMarkerLine c l || !isMarkerLine c l') := by
  rw [sameItem, bne, Token.classify_beq_marker, Token.classify_beq_marker]

/-- Parameter lines and then other lines belong to one item. -/
theorem isChain_sameItem_append {ms ts : List Token} (hms : ∀ t ∈ ms, t.kind = .marker)
    (hts : ∀ t ∈ ts, t.kind ≠ .marker) :
    (ms ++ ts).IsChain fun t u => sameItem t u = true := by
  have hleft : ∀ t ∈ ms, ∀ u, sameItem t u = true := fun t ht u => by
    rw [sameItem, beq_iff_eq.2 (hms t ht), Bool.true_or]
  have hright : ∀ t, ∀ u ∈ ts, sameItem t u = true := fun t u hu => by
    rw [sameItem, bne_iff_ne.2 (hts u hu), Bool.or_true]
  rw [List.isChain_append]
  refine ⟨?_, ?_, fun t ht u _ => hleft t (List.mem_of_getLast? ht) u⟩
  · exact (List.pairwise_of_forall_mem_list fun t ht u _ => hleft t ht u).isChain
  · exact (List.pairwise_of_forall_mem_list fun t _ u hu => hright t u hu).isChain

/-- The tokens are cut where an item begins. -/
theorem begins_ofLinesFrom {c : Conventions} (n : Nat) {ls : List Text} {i : Nat} :
    Parts.Begins sameItem (ofLinesFrom c n ls) i ↔ BeginsItem c ls i := by
  rw [Parts.Begins, BeginsItem, Token.getElem?_ofLinesFrom, Token.getElem?_ofLinesFrom]
  constructor
  · rintro ⟨u, hu, hor⟩
    obtain ⟨l, hl, rfl⟩ := Option.map_eq_some_iff.1 hu
    refine ⟨l, hl, hor.imp_right ?_⟩
    rintro ⟨t, ht, hr⟩
    obtain ⟨p, hp, rfl⟩ := Option.map_eq_some_iff.1 ht
    rw [sameItem_classify, Bool.or_eq_false_iff, Bool.not_eq_false'] at hr
    exact ⟨hr.2, p, hp, hr.1⟩
  · rintro ⟨l, hl, hor⟩
    refine ⟨_, Option.map_eq_some_iff.2 ⟨l, hl, rfl⟩, hor.imp_right ?_⟩
    rintro ⟨hm, p, hp, hn⟩
    refine ⟨_, Option.map_eq_some_iff.2 ⟨p, hp, rfl⟩, ?_⟩
    rw [sameItem_classify, hm, hn]
    rfl

/-- The lines of the parts of the tokens are the parts of the lines. -/
theorem partition_of_splitBy (c : Conventions) (ls : List Text) :
    Partition c ls (((ofLinesFrom c 1 ls).splitBy sameItem).map (List.map Token.text)) := by
  have hflat := List.flatten_splitBy sameItem (ofLinesFrom c 1 ls)
  refine ⟨?_, ?_, ?_⟩
  · rw [← List.map_flatten, hflat, Token.map_text_ofLinesFrom]
  · intro hnil
    obtain ⟨ts, hts, hempty⟩ := List.mem_map.1 hnil
    rw [List.map_eq_nil_iff] at hempty
    exact List.nil_notMem_splitBy _ _ (hempty ▸ hts)
  · intro i
    have hbegins := Parts.exists_offset_iff_begins (List.nil_notMem_splitBy sameItem _)
      (fun p hp => List.isChain_of_mem_splitBy hp)
      (List.isChain_getLast_head_splitBy sameItem (ofLinesFrom c 1 ls)) i
    rw [hflat, begins_ofLinesFrom] at hbegins
    simpa only [List.length_map, Parts.offset_map] using hbegins

/-- Neighbours in a part of the tokens are neighbouring lines of one item. -/
theorem isChain_of_ofLinesFrom {c : Conventions} {n : Nat} {part : List Text}
    (h : (ofLinesFrom c n part).IsChain fun t u => sameItem t u = true) :
    part.IsChain fun l l' => isMarkerLine c l' = true → isMarkerLine c l = true := by
  induction part generalizing n with
  | nil => exact List.isChain_nil
  | cons l ls ih =>
    cases ls with
    | nil => exact List.isChain_singleton l
    | cons l' ls =>
      rw [Token.ofLinesFrom_cons, Token.ofLinesFrom_cons, List.isChain_cons_cons,
        ← Token.ofLinesFrom_cons, sameItem_classify] at h
      refine List.isChain_cons_cons.2 ⟨fun hm => ?_, ih h.2⟩
      rw [hm] at h
      simpa using h.1

/-! ## All items -/

/-- Each item is what the lines of its part make up. -/
theorem madeOf_of_splitBy {c : Conventions} {source : Option Text} {ls : List Text}
    {tss : List (List Token)} {items : List Item}
    (htss : (ofLinesFrom c 1 ls).splitBy sameItem = tss)
    (hitems : tss.mapM (Item.ofTokens c source) = .ok items) {j : Nat} {part : List Text}
    {item : Item} (hj : (tss.map (List.map Token.text))[j]? = some part)
    (hitem : items[j]? = some item) :
    item.MadeOf c (offset (tss.map (List.map Token.text)) j) part := by
  have hflat : tss.flatten = ofLinesFrom c 1 ls := by
    rw [← htss, List.flatten_splitBy]
  rw [List.getElem?_map, Option.map_eq_some_iff] at hj
  obtain ⟨ts, hj, rfl⟩ := hj
  have hmem : ts ∈ (ofLinesFrom c 1 ls).splitBy sameItem := htss ▸ List.mem_of_getElem? hj
  have hof : Item.ofTokens c source ts = .ok item := by
    obtain ⟨hlt, rfl⟩ := List.getElem?_eq_some_iff.1 hj
    obtain ⟨hlt', rfl⟩ := List.getElem?_eq_some_iff.1 hitem
    exact (mapM_eq_ok_iff.1 hitems).get hlt hlt'
  have hchain : ts.IsChain fun t u => sameItem t u = true := List.isChain_of_mem_splitBy hmem
  have hne : ts.map Token.text ≠ [] := by
    rw [Ne, List.map_eq_nil_iff]
    exact List.ne_nil_of_mem_splitBy hmem
  rw [Token.eq_ofLinesFrom_of_flatten hflat hj, Nat.add_comm] at hof hchain
  rw [Parts.offset_map]
  exact Item.madeOf_of_ofTokens hne (isChain_of_ofLinesFrom hchain) hof

/-- A document names the source that it was read from. -/
theorem source_of_ofTokens {c : Conventions} {source : Option Text} {ts : List Token} {d : Document}
    (h : ofTokens c source ts = .ok d) : d.source = source := by
  rw [ofTokens, bind_eq_ok_iff] at h
  obtain ⟨items, -, hd⟩ := h
  obtain rfl := Except.ok.inj hd
  rfl

theorem takeWhile_ofText (c : Conventions) (t : Text) :
    (Token.ofText c t).takeWhile (·.kind != .finish) = ofLinesFrom c 1 (Text.lines t) := by
  rw [Token.ofText, Token.ofLines_eq, List.takeWhile_append_of_pos]
  · simp
  · intro u hu
    obtain ⟨p, -, rfl⟩ := List.mem_map.1 hu
    exact bne_iff_ne.2 (Token.classify_ne_finish c p.1)

theorem exists_accounts {c : Conventions} {source : Option Text} {t : Text} {d : Document}
    (h : parse c source t = .ok d) : ∃ parts, d.Accounts c (Text.lines t) parts := by
  rw [parse, ofTokens, takeWhile_ofText] at h
  have hpart := partition_of_splitBy c (Text.lines t)
  generalize htss : (ofLinesFrom c 1 (Text.lines t)).splitBy sameItem = tss at h hpart
  cases hitems : tss.mapM (Item.ofTokens c source) with
  | error e =>
    simp only [hitems] at h
    cases h
  | ok items =>
    simp only [hitems] at h
    obtain rfl := Except.ok.inj h
    refine ⟨_, hpart, ?_, fun j part item hj hitem => madeOf_of_splitBy htss hitems hj hitem⟩
    rw [List.length_map, (mapM_eq_ok_iff.1 hitems).length_eq]

theorem Accounts.params_or_body {c : Conventions} {ls : List Text} {d : Document}
    {parts : List (List Text)} (h : d.Accounts c ls parts) {item : Item} (hmem : item ∈ d.items) :
    item.params ≠ [] ∨ item.body ≠ [] := by
  obtain ⟨j, hj⟩ := List.mem_iff_getElem?.1 hmem
  have hlt := (List.getElem?_eq_some_iff.1 hj).1
  rw [h.length_eq] at hlt
  have hget := List.getElem?_eq_getElem hlt
  refine (h.items j _ item hget hj).params_or_body ?_
  intro hnil
  exact h.partition.nonempty (hnil ▸ List.mem_of_getElem? hget)

/-- A document that was read from a text accounts for its lines, and no item has neither parameters
nor a body. The empty text is a document without items. -/
theorem accounts_of_parse {c : Conventions} {source : Option Text} {t : Text} {d : Document}
    (h : parse c source t = .ok d) :
    (∃ parts, d.Accounts c (Text.lines t) parts) ∧
      (∀ item ∈ d.items, item.params ≠ [] ∨ item.body ≠ []) ∧
      parse c source [] = .ok ⟨[], source⟩ := by
  obtain ⟨parts, haccounts⟩ := exists_accounts h
  exact ⟨⟨parts, haccounts⟩, fun item hmem => haccounts.params_or_body hmem, rfl⟩

/-- Three items, the first without parameters and the last without a body. A colon in a value, a
marker without white space after it and a carriage return do not end anything. -/
theorem accounts_of_parse_three_items :
    parse {} none "x\n## k : a:b\n##\tl:\n..\n##y\r\n## k:c" =
        .ok ⟨[⟨[], [.literal "x" 1], 1⟩,
          ⟨[("k", "a:b"), ("l", "")], [.skip 4, .literal "##y" 5], 2⟩,
          ⟨[("k", "c")], [], 6⟩], none⟩ ∧
      ∃ parts, Accounts {} (Text.lines "x\n## k : a:b\n##\tl:\n..\n##y\r\n## k:c")
        ⟨[⟨[], [.literal "x" 1], 1⟩,
          ⟨[("k", "a:b"), ("l", "")], [.skip 4, .literal "##y" 5], 2⟩,
          ⟨[("k", "c")], [], 6⟩], none⟩ parts := by
  have h : parse {} none "x\n## k : a:b\n##\tl:\n..\n##y\r\n## k:c" =
      .ok ⟨[⟨[], [.literal "x" 1], 1⟩,
        ⟨[("k", "a:b"), ("l", "")], [.skip 4, .literal "##y" 5], 2⟩,
        ⟨[("k", "c")], [], 6⟩], none⟩ := by decide +kernel
  exact ⟨h, (accounts_of_parse h).1⟩

end Document

end LineSpec
