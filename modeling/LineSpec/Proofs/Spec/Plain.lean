import LineSpec.Proofs.Spec.Wording
import LineSpec.Render
/-!
# Plain specifications

What is read from a specification is cut out of its text: keys and values, the lines of bodies, the
names of placeholders, and what an error quotes. So a plain text gives plain items
(`Document.plain_of_parse`) or an error in plain words, and resolving and rendering its lines with
plain values gives plain text.
-/

namespace LineSpec

variable {c : Conventions} {source : Option Text} {t : Text}

/-! ## Documents -/

/-- An item none of whose texts holds a surrogate. -/
structure Item.Plain (item : Item) : Prop where
  params : ∀ p ∈ item.params, p.1.Plain ∧ p.2.Plain
  body : ∀ e ∈ item.body, e.text.Plain

namespace Item

/-- The key and the value of a parameter line are cut out of it. -/
theorem IsParam.subset {l : Text} {p : Text × Text} (h : IsParam c l p) : p.1 ⊆ l ∧ p.2 ⊆ l := by
  obtain ⟨key, value, rfl, -, rfl⟩ := h
  constructor
  · exact List.Subset.trans (Text.trim_subset key) fun ch hch =>
      List.mem_append_left _ (List.mem_append_right _ hch)
  · exact List.Subset.trans (Text.trim_subset value) fun ch hch =>
      List.mem_append_right _ (List.mem_cons_of_mem _ hch)

theorem exists_isParam {run : List Text} {params : Bindings Text}
    (h : List.Forall₂ (IsParam c) run params) {p : Text × Text} (hp : p ∈ params) :
    ∃ l ∈ run, IsParam c l p := by
  induction h with
  | nil => cases hp
  | @cons l p' run params hparam _ ih =>
    rcases List.mem_cons.1 hp with rfl | hp
    · exact ⟨l, List.mem_cons_self, hparam⟩
    · obtain ⟨l', hl', hparam'⟩ := ih hp
      exact ⟨l', List.mem_cons_of_mem _ hl', hparam'⟩

/-- An entry of the body is what a line of the part gives. -/
theorem MadeOf.exists_ofLine {n : Nat} {part : List Text} {item : Item} (h : item.MadeOf c n part)
    {e : Entry} (he : e ∈ item.body) : ∃ l ∈ part, ∃ k, e = .ofLine c l k := by
  rw [h.body] at he
  obtain ⟨⟨l, k⟩, hmem, rfl⟩ := List.mem_map.1 he
  exact ⟨l, (List.dropWhile_sublist _).subset (List.fst_mem_of_mem_zipIdx hmem), k, rfl⟩

theorem MadeOf.plain {n : Nat} {part : List Text} {item : Item} (h : item.MadeOf c n part)
    (hpart : ∀ l ∈ part, l.Plain) : item.Plain := by
  constructor
  · intro p hp
    obtain ⟨l, hl, hparam⟩ := exists_isParam h.params hp
    have hplain := hpart l ((List.takeWhile_sublist _).subset hl)
    exact ⟨hplain.of_subset hparam.subset.1, hplain.of_subset hparam.subset.2⟩
  · intro e he
    obtain ⟨l, hl, k, rfl⟩ := h.exists_ofLine he
    rw [Entry.ofLine]
    split
    · exact Text.plain_nil
    · exact hpart l hl

end Item

namespace Document

/-- An item of a document is made of lines of its text. -/
theorem exists_madeOf {d : Document} (h : parse c source t = .ok d) {item : Item}
    (hitem : item ∈ d.items) :
    ∃ n part, item.MadeOf c n part ∧ ∀ l ∈ part, l ∈ Text.lines t := by
  obtain ⟨parts, haccounts⟩ := exists_accounts h
  obtain ⟨j, hj⟩ := List.mem_iff_getElem?.1 hitem
  have hlt := (List.getElem?_eq_some_iff.1 hj).1
  rw [haccounts.length_eq] at hlt
  refine ⟨_, _, haccounts.items j _ item (List.getElem?_eq_getElem hlt) hj, fun l hl => ?_⟩
  rw [← haccounts.partition.flatten]
  exact List.mem_flatten_of_mem (List.getElem_mem hlt) hl

/-- The items of a plain text are plain. -/
theorem plain_of_parse {d : Document} (ht : t.Plain) (h : parse c source t = .ok d) :
    ∀ item ∈ d.items, item.Plain := by
  intro item hitem
  obtain ⟨n, part, hmade, hlines⟩ := exists_madeOf h hitem
  exact hmade.plain fun l hl => ht.of_subset (Text.subset_of_mem_lines (hlines l hl))

/-- A document has a skip only where a line of its text is the skip marker. -/
theorem skip_mem_lines_of_parse {d : Document} (h : parse c source t = .ok d) {item : Item}
    (hitem : item ∈ d.items) {line : Int} (hskip : .skip line ∈ item.body) :
    c.skip ∈ Text.lines t := by
  obtain ⟨n, part, hmade, hlines⟩ := exists_madeOf h hitem
  obtain ⟨l, hl, k, hline⟩ := hmade.exists_ofLine hskip
  rw [Entry.ofLine] at hline
  split at hline
  next heq => exact heq ▸ hlines l hl
  · cases hline

/-- A literal of a document is a line of its text. -/
theorem literal_mem_lines_of_parse {d : Document} (h : parse c source t = .ok d) {item : Item}
    (hitem : item ∈ d.items) {text : Text} {line : Int} (hliteral : .literal text line ∈ item.body) :
    text ∈ Text.lines t := by
  obtain ⟨n, part, hmade, hlines⟩ := exists_madeOf h hitem
  obtain ⟨l, hl, k, hline⟩ := hmade.exists_ofLine hliteral
  rw [Entry.ofLine] at hline
  split at hline
  · cases hline
  · obtain ⟨rfl, -⟩ := Entry.literal.inj hline
    exact hlines _ hl

/-- The error of a plain text shows a plain line, and says in plain words what is wrong with it. -/
theorem plain_of_parse_eq_error {e : ParseError} (ht : t.Plain)
    (h : parse c source t = .error e) :
    e.line.Plain ∧ e.cause.message.Plain ∧ e.source = source := by
  obtain ⟨hsource, hline, hmessage, -⟩ := error_of_parse h
  have hplain : e.line.Plain := ht.of_subset (Text.subset_of_mem_lines hline)
  exact ⟨hplain, hmessage.plain hplain, hsource⟩

end Document

/-! ## Placeholders -/

namespace Template

variable {lookup : Text → Option Text} {text : Text}

/-- The names in a plain line are plain, and an error is given in plain words. -/
theorem plain_of_placeholders (htext : text.Plain) :
    (∀ names, placeholders c text = .ok names → ∀ name ∈ names, name.Plain) ∧
      ∀ e, placeholders c text = .error e → e.message.Plain := by
  obtain ⟨hslots, -⟩ := subset_of_scanFrom c 0 text
  rw [placeholders]
  split
  · refine ⟨fun names hnames => ?_, fun e he => ?_⟩
    · obtain rfl := Except.ok.inj hnames
      exact List.forall_mem_map.2 fun slot hslot => htext.of_subset (hslots slot hslot).2
    · cases he
  · refine ⟨fun names hnames => ?_, fun e he => ?_⟩
    · cases hnames
    · obtain rfl := Except.error.inj he
      exact (PlaceholderError.printable_message_malformed text _).plain

/-- Slots with plain values give plain text. -/
theorem plain_of_fill (hlookup : ∀ name value, lookup name = some value → value.Plain)
    {slots : List Slot} (hslots : ∀ slot ∈ slots, slot.before.Plain) {r : Text}
    (h : fill lookup slots = .ok r) : r.Plain := by
  induction slots generalizing r with
  | nil =>
    obtain rfl := Except.ok.inj h
    exact Text.plain_nil
  | cons slot slots ih =>
    obtain ⟨hbefore, hslots⟩ := List.forall_mem_cons.1 hslots
    rw [fill] at h
    split at h
    · cases h
    next value hvalue =>
      obtain ⟨r', hr', rfl⟩ := map_eq_ok_iff.1 h
      exact (hbefore.append (hlookup _ _ hvalue)).append (ih hslots hr')

/-- Resolving a plain line with plain values gives a plain line, or an error in plain words. -/
theorem plain_of_substitute (hlookup : ∀ name value, lookup name = some value → value.Plain)
    (htext : text.Plain) :
    (∀ r, substitute c lookup text = .ok r → r.Plain) ∧
      ∀ e, substitute c lookup text = .error e → e.message.Plain := by
  refine ⟨fun r h => ?_, fun e he => (printableUpTo_of_substitute he).plain htext⟩
  obtain ⟨hslots, htail⟩ := subset_of_scanFrom c 0 text
  rw [substitute] at h
  split at h
  · cases h
  next filled hfilled =>
    split at h
    next rest hrest =>
      obtain rfl := Except.ok.inj h
      have hbefore : ∀ slot ∈ (scan c text).slots, slot.before.Plain :=
        fun slot hslot => htext.of_subset (hslots slot hslot).1
      exact (plain_of_fill hlookup hbefore hfilled).append (htext.of_subset (htail rest hrest))
    · cases h

end Template

/-! ## Rendering -/

namespace Body

variable {ε : Type} {resolve : Text → Except ε Text}

/-- Plain lines that resolve to plain lines give plain content. -/
theorem plain_of_render (hresolve : ∀ text, text.Plain → ∀ l, resolve text = .ok l → l.Plain)
    {body : Body} (hbody : ∀ e ∈ body, e.text.Plain) {content : Text}
    (h : body.render resolve = .ok content) : content.Plain := by
  obtain ⟨ls, hls, rfl⟩ := map_eq_ok_iff.1 h
  have hlines : ∀ l ∈ ls, l.Plain := by
    clear h
    induction body generalizing ls with
    | nil =>
      obtain rfl := Except.ok.inj hls
      exact List.forall_mem_nil _
    | cons e body ih =>
      obtain ⟨he, hrest⟩ := List.forall_mem_cons.1 hbody
      cases e with
      | skip line => cases hls
      | literal text line =>
        rw [resolved] at hls
        split at hls
        · cases hls
        next l hl =>
          obtain ⟨ls', hls', rfl⟩ := map_eq_ok_iff.1 hls
          exact List.forall_mem_cons.2 ⟨hresolve text he l hl, ih hrest ls' hls'⟩
  exact List.forall_mem_flatMap.2 fun l hl => (hlines l hl).append (Text.plain_ofString "\n")

/-- What cannot be resolved is a line of the body. -/
theorem exists_of_render_eq_error {body : Body} {e : ε}
    (h : body.render resolve = .error (.unresolved e)) :
    ∃ text line, .literal text line ∈ body ∧ resolve text = .error e := by
  replace h := map_eq_error_iff.1 h
  induction body with
  | nil => cases h
  | cons entry body ih =>
    cases entry with
    | skip line => cases h
    | literal text line =>
      rw [resolved] at h
      split at h
      next e' he =>
        obtain rfl := RenderError.unresolved.inj (Except.error.inj h)
        exact ⟨text, line, List.mem_cons_self, he⟩
      · obtain ⟨text', line', hmem, he⟩ := ih (map_eq_error_iff.1 h)
        exact ⟨text', line', List.mem_cons_of_mem _ hmem, he⟩

end Body

end LineSpec
