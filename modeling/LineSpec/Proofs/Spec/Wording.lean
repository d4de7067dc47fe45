import LineSpec.Proofs.Spec.Fault
import LineSpec.Proofs.Template.Agreement
import LineSpec.Proofs.Text.Fragment
import LineSpec.Proofs.Text.Printable
/-!
# What an error repeats

The words for an error are printable but for what they repeat as it stands: a fragment of the line
that cannot be read (`Document.error_of_parse`) or resolved (`Template.printableUpTo_of_substitute`),
and the name of the file (`ParseError.printableUpTo_message`). So what matters of an error's words,
that they are plain or that they are one line, follows from the same of that line and that name.
-/

namespace LineSpec

variable {c : Conventions} {source : Option Text} {t : Text}

/-! ## Lines that cannot be read -/

namespace Document

theorem Fault.printableUpTo_message {ls : List Text} {i : Nat} {cause : ParseError.Cause} {l : Text}
    (h : Fault c ls i cause) (hl : ls[i]? = some l) : cause.message.PrintableUpTo l := by
  have hquotes : ∀ {before after : String} {fragment : Text}, Text.Printable before →
      Text.Printable after → fragment ⊆ l →
      Text.PrintableUpTo (before ++ fragment ++ after) l := by
    intro before after fragment hbefore hafter hsub
    exact ((hbefore.upTo l).append (Text.printableUpTo_of_subset hsub)).append (hafter.upTo l)
  cases h with
  | malformed hl' _ hmalformed =>
    obtain rfl := Option.some.inj (hl.symm.trans hl')
    cases hmalformed with
    | noParameter => exact Text.Printable.upTo (by decide) l
    | emptyKey => exact Text.Printable.upTo (by decide) l
    | noColon =>
      have hsub := List.Subset.trans (Text.trim_subset _) (List.drop_subset c.item.length l)
      exact hquotes (by decide) (by decide) hsub
  | duplicate _ _ _ _ hl' hkey =>
    obtain rfl := Option.some.inj (hl.symm.trans hl')
    obtain ⟨value, key, rest, hline, -, hparam⟩ := hkey
    obtain ⟨rfl, -⟩ := Prod.mk.inj hparam
    refine hquotes (by decide) (by decide) ?_
    rw [hline]
    intro ch hch
    exact List.mem_append_left _ (List.mem_append_right _ (Text.trim_subset key hch))

/-- The error of a text is about one of its lines, numbered from one, and repeats nothing else. -/
theorem error_of_parse {e : ParseError} (h : parse c source t = .error e) :
    e.source = source ∧ e.line ∈ Text.lines t ∧ e.cause.message.PrintableUpTo e.line ∧
      ∃ i : Nat, e.number = (i + 1 : Nat) := by
  have hanswers : Answers c source 1 (Text.lines t) (parse c source t) := answers_parse t
  rw [h] at hanswers
  obtain ⟨i, l, hl, hfirst, he⟩ := hanswers
  have hmessage := hfirst.fault.printableUpTo_message hl
  have hline : e.line = l := congrArg ParseError.line he
  refine ⟨congrArg ParseError.source he, ?_, hline ▸ hmessage, i, ?_⟩
  · rw [hline]
    exact List.mem_of_getElem? hl
  · rw [congrArg ParseError.number he, Nat.add_comm]

end Document

/-- An error repeats the name of its file and what the words for its cause repeat. -/
theorem ParseError.printableUpTo_message (e : ParseError) :
    e.message.PrintableUpTo (e.source.getD [] ++ e.cause.message) := by
  have hplace : e.place.PrintableUpTo (e.source.getD [] ++ e.cause.message) := by
    unfold place
    split
    · exact Text.Printable.upTo (by decide) _
    · exact Text.Printable.upTo (by decide) _
    next file _ hfile =>
      rw [hfile]
      exact (Text.printableUpTo_of_subset (List.subset_append_left _ _)).append
        (Text.Printable.upTo (by decide) _)
  have hnumber : Text.Printable (s!"{e.number}: " : String) :=
    Text.printable_ofString_append (Text.printable_toString e.number) (by decide)
  exact (hplace.append (hnumber.upTo _)).append
    (Text.printableUpTo_of_subset (List.subset_append_right _ _))

/-! ## Lines that cannot be resolved -/

/-- A line whose placeholder is malformed is quoted. -/
theorem PlaceholderError.printable_message_malformed (text : Text) (offset : Int) :
    (malformed text offset).message.Printable := by
  have hcolumn : Text.Printable (s!"Malformed placeholder at column {offset + 1}: " : String) :=
    Text.printable_ofString_append
      (Text.printable_ofString_append (by decide) (Text.printable_toString (offset + 1)))
      (by decide)
  exact hcolumn.append (Text.printable_quoted text)

namespace Template

variable {lookup : Text → Option Text} {text : Text}

/-- What a scan cuts a text into is cut out of it. -/
theorem subset_of_scanFrom (c : Conventions) (offset : Nat) (t : Text) :
    (∀ slot ∈ (scanFrom c offset t).slots, slot.before ⊆ t ∧ slot.name ⊆ t) ∧
      ∀ rest, (scanFrom c offset t).tail = .text rest → rest ⊆ t := by
  fun_induction scanFrom c offset t with
  | case1 offset t hopen =>
    refine ⟨List.forall_mem_nil _, fun rest hrest => ?_⟩
    obtain rfl := Tail.text.inj hrest
    exact List.Subset.refl _
  | case2 | case3 =>
    refine ⟨List.forall_mem_nil _, fun rest hrest => ?_⟩
    cases hrest
  | case4 offset t before after hopen raw rest hclose name hname next ih =>
    obtain ⟨hbefore, hafter⟩ := Text.subset_of_splitFirst? hopen
    obtain ⟨hraw, hrest⟩ := Text.subset_of_splitFirst? hclose
    have hname' : Text.trim raw ⊆ t := fun ch hch => hafter (hraw (Text.trim_subset raw hch))
    have hnext : rest ⊆ t := fun ch hch => hafter (hrest hch)
    obtain ⟨hslots, htail⟩ := ih
    refine ⟨List.forall_mem_cons.2 ⟨⟨hbefore, hname'⟩, fun slot hslot => ?_⟩, fun r hr => ?_⟩
    · obtain ⟨hb, hn⟩ := hslots slot hslot
      exact ⟨List.Subset.trans hb hnext, List.Subset.trans hn hnext⟩
    · exact List.Subset.trans (htail r hr) hnext

/-- Where a line cannot be resolved, the error names what stands in the line, or quotes the line. -/
theorem printableUpTo_of_substitute {e : PlaceholderError}
    (h : substitute c lookup text = .error e) : e.message.PrintableUpTo text := by
  obtain ⟨hslots, -⟩ := subset_of_scanFrom c 0 text
  unfold substitute at h
  dsimp only at h
  split at h
  next e' he' =>
    obtain rfl := Except.error.inj h
    obtain ⟨before, name, after, hsplit, -, -, rfl⟩ := fill_eq_error_iff.1 he'
    have hname : name ∈ (scan c text).slots.map Slot.name := by
      rw [hsplit]
      exact List.mem_append_right _ List.mem_cons_self
    obtain ⟨slot, hslot, rfl⟩ := List.mem_map.1 hname
    exact (Text.Printable.upTo (by decide) text).append
      (Text.printableUpTo_of_subset (hslots slot hslot).2)
  · split at h
    · cases h
    · obtain rfl := Except.error.inj h
      exact (PlaceholderError.printable_message_malformed text _).upTo text

end Template

end LineSpec
