import LineSpec.Proofs.Match.Strictness
import LineSpec.Proofs.Spec.Partition
/-!
# The line that a failed match points at

A match that fails at a literal gives the number of that literal's line, and one that cannot resolve
a literal stops there. Where the body belongs to an item of a document that was read from a text,
this is the number of a line of the text: a literal line of that item (`Document.LiteralAt`).

The entries of a body stand for neighbouring lines, so the entry with index `k` has the number of
the first plus `k` (`Item.MadeOf.getElem?_body`). With the offset of the item's part this leads to
the line in the text, and it makes the entries before a literal those with smaller numbers
(`Item.MadeOf.before_eq`). That these match is what the diagnosis knows of them.
-/

namespace LineSpec

open Token (isMarkerLine)
open Parts (offset)

/-! ## Entries and their lines -/

namespace Item

/-- The entries of the body that stand before the line with the number `p`. -/
def before (item : Item) (p : Nat) : Body := item.body.takeWhile fun e => e.line < p

namespace MadeOf

variable {c : Conventions} {n : Nat} {part : List Text} {item : Item}

theorem getElem?_body (h : item.MadeOf c n part) (k : Nat) :
    item.body[k]? = (part.dropWhile (isMarkerLine c))[k]?.map fun l =>
      Entry.ofLine c l (n + 1 + (part.takeWhile (isMarkerLine c)).length + k : Nat) := by
  rw [h.body, List.getElem?_map, List.getElem?_zipIdx, Option.map_map]
  rfl

theorem line_of_getElem?_body (h : item.MadeOf c n part) {k : Nat} {e : Entry}
    (hk : item.body[k]? = some e) :
    e.line = (n + 1 + (part.takeWhile (isMarkerLine c)).length + k : Nat) := by
  rw [h.getElem?_body, Option.map_eq_some_iff] at hk
  obtain ⟨l, -, rfl⟩ := hk
  exact Entry.line_ofLine c l _

/-- The entries before one of the body are those with smaller numbers. -/
theorem before_eq (h : item.MadeOf c n part) {es after : Body} {e : Entry} {p : Nat}
    (hbody : item.body = es ++ e :: after) (hp : e.line = p) : item.before p = es := by
  have hat : item.body[es.length]? = some e := by
    rw [hbody, List.getElem?_append_right (Nat.le_refl _), Nat.sub_self, List.getElem?_cons_zero]
  have hline := h.line_of_getElem?_body hat
  rw [Item.before, hbody, List.takeWhile_append_of_pos, List.takeWhile_cons_of_neg,
    List.append_nil]
  · simp [hp]
  · intro a ha
    obtain ⟨k, hk⟩ := List.mem_iff_getElem?.1 ha
    have hlt : k < es.length := (List.getElem?_eq_some_iff.1 hk).1
    have hka : item.body[k]? = some a := by
      rw [hbody, List.getElem?_append_left hlt, hk]
    have := h.line_of_getElem?_body hka
    rw [decide_eq_true_eq]
    omega

end MadeOf

end Item

/-! ## Literal lines of a document -/

namespace Document

/-- `d.LiteralAt c ls j item p line` says that the line with the number `p` of the lines `ls` is
`line`, and that it is a literal in the body of `item`, the item of `d` with index `j`. It stands
before the next item. -/
structure LiteralAt (c : Conventions) (ls : List Text) (d : Document) (j : Nat) (item : Item)
    (p : Nat) (line : Text) : Prop where
  pos : 0 < p
  line_eq : ls[p - 1]? = some line
  mem : .literal line p ∈ item.body
  notMarker : isMarkerLine c line = false
  notSkip : line ≠ c.skip
  item_le : item.line ≤ p
  lt_next : ∀ next, d.items[j + 1]? = some next → p < next.line

/-- A literal of the body of an item is the literal line with its number. -/
theorem Accounts.literalAt {c : Conventions} {ls : List Text} {d : Document}
    {parts : List (List Text)} (h : d.Accounts c ls parts) {j : Nat} {item : Item}
    (hj : d.items[j]? = some item) {es after : Body} {text : Text} {line : Int}
    (hbody : item.body = es ++ .literal text line :: after) :
    ∃ p : Nat, line = p ∧ d.LiteralAt c ls j item p text ∧ item.before p = es := by
  obtain ⟨part, hpart⟩ : ∃ part, parts[j]? = some part := by
    have hlt := (List.getElem?_eq_some_iff.1 hj).1
    rw [h.length_eq] at hlt
    exact ⟨_, List.getElem?_eq_getElem hlt⟩
  have hmade := h.items j part item hpart hj
  have hat : item.body[es.length]? = some (.literal text line) := by
    rw [hbody, List.getElem?_append_right (Nat.le_refl _), Nat.sub_self, List.getElem?_cons_zero]
  have hline := hmade.line_of_getElem?_body hat
  have hentry := hat
  rw [hmade.getElem?_body, Option.map_eq_some_iff] at hentry
  obtain ⟨l, hl, hentry⟩ := hentry
  obtain ⟨hskip, rfl, -⟩ := Entry.ofLine_eq_literal_iff.1 hentry
  have hmarker := hmade.noMarker l (List.mem_of_getElem? hl)
  rw [Parts.getElem?_dropWhile] at hl
  have hin := (List.getElem?_eq_some_iff.1 hl).1
  refine ⟨_, hline, ⟨by omega, ?_, ?_, hmarker, hskip, ?_, ?_⟩, hmade.before_eq hbody hline⟩
  · have hflat := Parts.getElem?_flatten hpart hl
    rw [h.partition.flatten] at hflat
    rw [← hflat]
    congr 1
    omega
  · rw [← hline]
    exact List.mem_of_getElem? hat
  · rw [hmade.line]
    omega
  · intro next hnext
    have hlt := (List.getElem?_eq_some_iff.1 hnext).1
    rw [h.length_eq] at hlt
    rw [(h.items (j + 1) _ next (List.getElem?_eq_getElem hlt) hnext).line,
      Parts.offset_succ hpart]
    omega

end Document

/-! ## What a failed match points at -/

namespace Match

/-- A body that can be placed matches, where nothing is asked of the end of the input. -/
theorem verdict_withEnd_of_placement {c : Conventions} {vars : Bindings Text} {body : Body}
    {ls : List Text} {is : List Nat}
    (h : Placement (c.resolve vars) (ls.map Text.bare) body is) :
    ((c.withEnd false).run vars body ls).verdict = .matched := by
  rw [Conventions.run, Conventions.resolve_withEnd]
  exact (Diagnosis.matched h fun hstrict => absurd hstrict Bool.false_ne_true).verdict_eq

/-- A failure that expects a line, and a literal that does not resolve, point at a literal line of
the item in the text of the specification. It is what the failure expects, or what does not resolve,
and the body before it matches the same input. -/
theorem exists_literalAt_of_verdict {c : Conventions} {source : Option Text} {t : Text}
    {d : Document} (h : Document.parse c source t = .ok d) {j : Nat} {item : Item}
    (hj : d.items[j]? = some item) (vars : Bindings Text) (ls : List Text) :
    (∀ e expected, (c.run vars item.body ls).verdict = .failed e → e.expected = some expected →
      ∃ (p : Nat) (line : Text), e.patternLine = p ∧
        d.LiteralAt c (Text.lines t) j item p line ∧ c.resolve vars line = .ok expected ∧
        ((c.withEnd false).run vars (item.before p) ls).verdict = .matched) ∧
    (∀ e, (c.run vars item.body ls).verdict = .unresolved e →
      ∃ (p : Nat) (line : Text),
        d.LiteralAt c (Text.lines t) j item p line ∧ c.resolve vars line = .error e ∧
        ((c.withEnd false).run vars (item.before p) ls).verdict = .matched) := by
  obtain ⟨parts, haccounts⟩ := Document.exists_accounts h
  have hdiagnosis := diagnosis_verdict (c.resolve vars) c.strictEnd item.body ls
  constructor
  · intro e expected hverdict hexpected
    rw [Conventions.run] at hverdict
    rw [hverdict] at hdiagnosis
    cases hdiagnosis with
    | differs split placed next resolved found ne common =>
      obtain ⟨p, hp, hat, hbefore⟩ := haccounts.literalAt hj split
      obtain rfl := Option.some.inj hexpected
      exact ⟨p, _, hp, hat, resolved, hbefore ▸ verdict_withEnd_of_placement placed⟩
    | inputEnds split placed resolved ended =>
      obtain ⟨p, hp, hat, hbefore⟩ := haccounts.literalAt hj split
      obtain rfl := Option.some.inj hexpected
      exact ⟨p, _, hp, hat, resolved, hbefore ▸ verdict_withEnd_of_placement placed⟩
    | inputGoesOn strict noSkip placed found => cases hexpected
  · intro e hverdict
    rw [Conventions.run] at hverdict
    rw [hverdict] at hdiagnosis
    cases hdiagnosis with
    | unresolved split placed refused =>
      obtain ⟨p, -, hat, hbefore⟩ := haccounts.literalAt hj split
      exact ⟨p, _, hat, refused, hbefore ▸ verdict_withEnd_of_placement placed⟩

/-- The second item of a document has skips and a placeholder. It fails at line 5 on one input, and
on another one at line 8, where the placeholder has no value. -/
theorem exists_literalAt_of_verdict_second_item :
    let t : Text := "## file: a\nx\n## file: b\n\nx\n..\n..\n$\x7bv\x7d\n"
    let item : Item := ⟨[("file", "b")], [.literal "" 4, .literal "x" 5, .skip 6, .skip 7,
      .literal "$\x7bv\x7d" 8], 3⟩
    let d : Document := ⟨[⟨[("file", "a")], [.literal "x" 2], 1⟩, item], none⟩
    (({} : Conventions).run [] item.body ["\n", "xy\n"]).verdict =
        .failed (.differs 2 "x" "xy" 1 5) ∧
      (∃ (p : Nat) (line : Text), (5 : Int) = p ∧
        d.LiteralAt {} (Text.lines t) 1 item p line ∧
        ({} : Conventions).resolve [] line = .ok "x" ∧
        ((({} : Conventions).withEnd false).run [] (item.before p) ["\n", "xy\n"]).verdict =
          .matched) ∧
      (({} : Conventions).run [] item.body ["\n", "x"]).verdict =
        .unresolved (.undefined "v") ∧
      ∃ (p : Nat) (line : Text), d.LiteralAt {} (Text.lines t) 1 item p line ∧
        ({} : Conventions).resolve [] line = .error (.undefined "v") ∧
        ((({} : Conventions).withEnd false).run [] (item.before p) ["\n", "x"]).verdict =
          .matched := by
  intro t item d
  have h : Document.parse {} none t = .ok d := by decide +kernel
  have hfailed : (({} : Conventions).run [] item.body ["\n", "xy\n"]).verdict =
      .failed (.differs 2 "x" "xy" 1 5) := by decide +kernel
  have hrefused : (({} : Conventions).run [] item.body ["\n", "x"]).verdict =
      .unresolved (.undefined "v") := by decide +kernel
  exact ⟨hfailed, (exists_literalAt_of_verdict h rfl [] _).1 _ _ hfailed rfl, hrefused,
    (exists_literalAt_of_verdict h rfl [] _).2 _ hrefused⟩

end Match

end LineSpec
