import LineSpec.Assoc
import LineSpec.Proofs.Text.Occurrence
import LineSpec.Template
/-!
# What the placeholders of a line are

A line is cut into placeholders from the left: the first opening text ends what stands before the
placeholder, the first closing text after it ends the placeholder, and the same goes on behind it.
`Reads` says this of a line without a word about scanning or positions. The names of the
placeholders are either all good, down to a last part without an opening text (`Decomposes`), or
there is a first placeholder that no value can be put for (`Offends`).

A scan follows `Reads` placeholder by placeholder (`scanFrom_of_reads`), and every line comes to one
of the two ends (`exists_ending`). Hence filling in the values succeeds exactly for the lines that
have a decomposition with values for all names, and otherwise refuses the first placeholder that
offends.
-/

namespace LineSpec.Template

open Text (FirstCut splitFirst?_eq_none_iff splitFirst?_eq_some_iff)

variable {c : Conventions}

/-! ## Placeholders in a line -/

/-- A placeholder as it stands in a line: the text between it and the one before, and the text
between its two ends. -/
structure Piece where
  before : Text
  raw : Text

/-- The name that a placeholder refers to. -/
def Piece.name (p : Piece) : Text := Text.trim p.raw

/-- The slot that a placeholder leaves in its line. -/
def Piece.slot (p : Piece) : Slot := ⟨p.before, p.name⟩

/-- `Reads c t ps rest` says that `t` begins with the placeholders `ps`, each found as far left as
possible, and goes on with `rest`. -/
inductive Reads (c : Conventions) : Text → List Piece → Text → Prop
  | nil (t : Text) : Reads c t [] t
  | cons {t afterOpening next rest : Text} {p : Piece} {ps : List Piece} :
      FirstCut c.opening t p.before afterOpening →
      FirstCut c.closing afterOpening p.raw next →
      Reads c next ps rest → Reads c t (p :: ps) rest

/-- The texts before the placeholders `ps`, each with what `f` puts in the place of its
placeholder, and `last` after them. -/
def written (f : Piece → Text) (ps : List Piece) (last : Text) : Text :=
  (ps.flatMap fun p => p.before ++ f p) ++ last

theorem written_cons (f : Piece → Text) (p : Piece) (ps : List Piece) (last : Text) :
    written f (p :: ps) last = p.before ++ f p ++ written f ps last := by
  simp [written]

/-- A line is its placeholders, written between their two ends, and what follows them. -/
theorem Reads.eq_written {t rest : Text} {ps : List Piece} (h : Reads c t ps rest) :
    t = written (fun p => c.opening ++ p.raw ++ c.closing) ps rest := by
  induction h with
  | nil t => rfl
  | cons hopen hclose _ ih =>
    rw [written_cons, ← ih, hopen.eq_append, hclose.eq_append]
    simp

theorem Reads.isSuffix {t rest : Text} {ps : List Piece} (h : Reads c t ps rest) : rest <:+ t :=
  ⟨_, h.eq_written.symm⟩

/-! ## The two ends -/

/-- `Decomposes c t ps last` says that `t` consists of the placeholders `ps`, which all name
something, and of `last`, in which no placeholder begins. -/
structure Decomposes (c : Conventions) (t : Text) (ps : List Piece) (last : Text) : Prop where
  reads : Reads c t ps last
  named : ∀ p ∈ ps, p.name ≠ []
  closed : ¬c.opening <:+: last

/-- A line has one decomposition at most. -/
theorem Decomposes.unique {t last last' : Text} {ps ps' : List Piece}
    (h : Decomposes c t ps last) (h' : Decomposes c t ps' last') : ps = ps' ∧ last = last' := by
  obtain ⟨hreads, -, hclosed⟩ := h
  obtain ⟨hreads', -, hclosed'⟩ := h'
  induction hreads generalizing ps' with
  | nil t =>
    cases hreads' with
    | nil => exact ⟨rfl, rfl⟩
    | cons hopen' => exact absurd hopen'.infix hclosed
  | @cons _ _ _ _ p _ hopen hclose _ ih =>
    cases hreads' with
    | nil => exact absurd hopen.infix hclosed'
    | @cons _ _ _ _ p' _ hopen' hclose' hreads' =>
      obtain ⟨hbefore, rfl⟩ := hopen.unique hopen'
      obtain ⟨hraw, rfl⟩ := hclose.unique hclose'
      obtain ⟨rfl, rfl⟩ := ih hclosed hreads'
      obtain rfl : p = p' := by
        cases p
        cases p'
        exact congr (congrArg Piece.mk hbefore) hraw
      exact ⟨rfl, rfl⟩

/-- `Offends c lookup text rest e` says that the first placeholder of `rest`, the end of the line
`text`, offends, and that `e` is what is wrong with it: it is not closed, it names nothing, or its
name has no value. -/
inductive Offends (c : Conventions) (lookup : Text → Option Text) (text rest : Text) :
    PlaceholderError → Prop
  | unclosed {front before after : Text} :
      text = front ++ rest → FirstCut c.opening rest before after → ¬c.closing <:+: after →
      Offends c lookup text rest (.malformed text (front.length + before.length : Nat))
  | blank {front before after raw next : Text} :
      text = front ++ rest → FirstCut c.opening rest before after →
      FirstCut c.closing after raw next → Text.trim raw = [] →
      Offends c lookup text rest (.malformed text (front.length + before.length : Nat))
  | undefined {before after raw next : Text} :
      FirstCut c.opening rest before after → FirstCut c.closing after raw next →
      Text.trim raw ≠ [] → lookup (Text.trim raw) = none →
      Offends c lookup text rest (.undefined (Text.trim raw))

/-! ## One round of a scan -/

theorem scanFrom_of_not_infix {t : Text} (offset : Nat) (h : ¬c.opening <:+: t) :
    scanFrom c offset t = ⟨[], .text t⟩ := by
  have hopen := splitFirst?_eq_none_iff.2 h
  rw [scanFrom]
  split
  · rfl
  · next h' =>
    rw [hopen] at h'
    cases h'

theorem scanFrom_of_unclosed {t before after : Text} (offset : Nat)
    (hopen : FirstCut c.opening t before after) (hclose : ¬c.closing <:+: after) :
    scanFrom c offset t = ⟨[], .malformed (offset + before.length)⟩ := by
  have hopen := splitFirst?_eq_some_iff.2 hopen
  have hclose := splitFirst?_eq_none_iff.2 hclose
  rw [scanFrom]
  split
  · next h =>
    rw [hopen] at h
    cases h
  · next before' after' h =>
    obtain ⟨rfl, rfl⟩ := Prod.mk.inj (Option.some.inj (hopen.symm.trans h))
    split
    · rfl
    · next h' =>
      rw [hclose] at h'
      cases h'

/-- A placeholder that is closed ends the scan when it names nothing. Otherwise the scan goes on
behind it. -/
theorem scanFrom_of_closed {t before after raw next : Text} (offset : Nat)
    (hopen : FirstCut c.opening t before after) (hclose : FirstCut c.closing after raw next) :
    scanFrom c offset t =
      if Text.trim raw = [] then ⟨[], .malformed (offset + before.length)⟩
      else
        let following := scanFrom c (offset + (t.length - next.length)) next
        ⟨⟨before, Text.trim raw⟩ :: following.slots, following.tail⟩ := by
  have hopen := splitFirst?_eq_some_iff.2 hopen
  have hclose := splitFirst?_eq_some_iff.2 hclose
  rw [scanFrom]
  split
  · next h =>
    rw [hopen] at h
    cases h
  · next before' after' h =>
    obtain ⟨rfl, rfl⟩ := Prod.mk.inj (Option.some.inj (hopen.symm.trans h))
    split
    · next h' =>
      rw [hclose] at h'
      cases h'
    · next raw' next' h' =>
      obtain ⟨rfl, rfl⟩ := Prod.mk.inj (Option.some.inj (hclose.symm.trans h'))
      simp only [List.isEmpty_iff]

/-! ## All rounds of a scan -/

/-- A scan passes over placeholders that name something, and goes on behind them. -/
theorem scanFrom_of_reads {t rest : Text} {ps : List Piece} (h : Reads c t ps rest)
    (hnamed : ∀ p ∈ ps, p.name ≠ []) (offset : Nat) :
    scanFrom c offset t =
      let following := scanFrom c (offset + (t.length - rest.length)) rest
      ⟨ps.map Piece.slot ++ following.slots, following.tail⟩ := by
  induction h generalizing offset with
  | nil t => simp
  | @cons t after next rest p ps hopen hclose hreads ih =>
    obtain ⟨hp, hps⟩ := List.forall_mem_cons.1 hnamed
    have hoffset : offset + (t.length - next.length) + (next.length - rest.length) =
        offset + (t.length - rest.length) := by
      have h₁ := hopen.length_eq
      have h₂ := hclose.length_eq
      have h₃ := hreads.isSuffix.length_le
      omega
    have hname : Text.trim p.raw ≠ [] := hp
    rw [scanFrom_of_closed offset hopen hclose, if_neg hname, ih hps, hoffset]
    rfl

/-- A scan comes to the end of a line without malformed placeholders. -/
theorem scan_of_decomposes {text last : Text} {ps : List Piece} (h : Decomposes c text ps last) :
    scan c text = ⟨ps.map Piece.slot, .text last⟩ := by
  rw [scan, scanFrom_of_reads h.reads h.named, scanFrom_of_not_infix _ h.closed]
  simp only [List.append_nil]

/-- A scan stops at the first placeholder that is malformed, whatever has a value. -/
theorem scan_of_malformed {lookup : Text → Option Text} {text rest : Text} {ps : List Piece}
    {offset : Nat} (h : Reads c text ps rest) (hnamed : ∀ p ∈ ps, p.name ≠ [])
    (hoffends : Offends c lookup text rest (.malformed text offset)) :
    scan c text = ⟨ps.map Piece.slot, .malformed offset⟩ := by
  rw [scan, scanFrom_of_reads h hnamed]
  generalize he : PlaceholderError.malformed text offset = e at hoffends
  cases hoffends with
  | unclosed htext hopen hclose =>
    obtain ⟨-, hoffset⟩ := PlaceholderError.malformed.inj he
    rw [scanFrom_of_unclosed _ hopen hclose]
    simp [htext, Int.ofNat_inj.1 hoffset]
  | blank htext hopen hclose hblank =>
    obtain ⟨-, hoffset⟩ := PlaceholderError.malformed.inj he
    rw [scanFrom_of_closed _ hopen hclose, if_pos hblank]
    simp [htext, Int.ofNat_inj.1 hoffset]
  | undefined => cases he

/-- Every scan comes to an end: behind good placeholders no other one begins, or the next one
offends. -/
theorem exists_ending (c : Conventions) (lookup : Text → Option Text) (text : Text) :
    ∃ ps rest, Reads c text ps rest ∧
      (∀ p ∈ ps, p.name ≠ [] ∧ (lookup p.name).isSome) ∧
      (¬c.opening <:+: rest ∨ ∃ e, Offends c lookup text rest e) := by
  -- of the placeholders passed over so far, `front` is the text and `t` what follows them
  suffices h : ∀ n (t front : Text), t.length = n → text = front ++ t →
      ∃ ps rest, Reads c t ps rest ∧
        (∀ p ∈ ps, p.name ≠ [] ∧ (lookup p.name).isSome) ∧
        (¬c.opening <:+: rest ∨ ∃ e, Offends c lookup text rest e) from
    h text.length text [] rfl rfl
  intro n
  induction n using Nat.strong_induction_on with
  | _ n ih =>
    intro t front hn htext
    cases hopen : Text.splitFirst? c.opening t with
    | none => exact ⟨[], t, .nil t, by simp, .inl (splitFirst?_eq_none_iff.1 hopen)⟩
    | some cut =>
      obtain ⟨before, after⟩ := cut
      rw [splitFirst?_eq_some_iff] at hopen
      cases hclose : Text.splitFirst? c.closing after with
      | none =>
        exact ⟨[], t, .nil t, by simp,
          .inr ⟨_, .unclosed htext hopen (splitFirst?_eq_none_iff.1 hclose)⟩⟩
      | some cut =>
        obtain ⟨raw, next⟩ := cut
        rw [splitFirst?_eq_some_iff] at hclose
        by_cases hname : Text.trim raw = []
        · exact ⟨[], t, .nil t, by simp, .inr ⟨_, .blank htext hopen hclose hname⟩⟩
        cases hvalue : lookup (Text.trim raw) with
        | none => exact ⟨[], t, .nil t, by simp, .inr ⟨_, .undefined hopen hclose hname hvalue⟩⟩
        | some value =>
          have hlt : next.length < n := by
            have h₁ := hopen.length_eq
            have h₂ := hclose.length_eq
            have h₃ := List.length_pos_iff.2 c.opening_ne
            omega
          have hnext : text = front ++ before ++ c.opening ++ raw ++ c.closing ++ next := by
            rw [htext, hopen.eq_append, hclose.eq_append]
            simp
          obtain ⟨ps, rest, hreads, hgood, hend⟩ := ih _ hlt next _ rfl hnext
          refine ⟨⟨before, raw⟩ :: ps, rest, .cons hopen hclose hreads, ?_, hend⟩
          refine List.forall_mem_cons.2 ⟨⟨hname, ?_⟩, hgood⟩
          rw [Piece.name, hvalue]
          rfl

/-- A scan makes no more rounds than its line has code points. -/
theorem length_slots_scanFrom_le (c : Conventions) (offset : Nat) (t : Text) :
    (scanFrom c offset t).slots.length ≤ t.length := by
  fun_induction scanFrom c offset t with
  | case1 => exact Nat.zero_le _
  | case2 => exact Nat.zero_le _
  | case3 => exact Nat.zero_le _
  | case4 offset t before after hopen raw next hclose name hname following ih =>
    have h₁ := Text.length_lt_of_splitFirst? c.opening_ne hopen
    have h₂ := Text.length_le_of_splitFirst? hclose
    have h₃ : following.slots.length ≤ next.length := ih
    rw [List.length_cons]
    omega

/-! ## Filling in the values -/

section
variable {lookup : Text → Option Text} {ps : List Piece}

/-- The value of the name of a placeholder. -/
def Piece.value (lookup : Text → Option Text) (p : Piece) : Text := (lookup p.name).getD []

theorem fill_append (hbound : ∀ p ∈ ps, (lookup p.name).isSome) (slots : List Slot) :
    fill lookup (ps.map Piece.slot ++ slots) =
      (fill lookup slots).map fun t => written (Piece.value lookup) ps t := by
  induction ps with
  | nil =>
    rw [List.map_nil, List.nil_append]
    cases fill lookup slots <;> rfl
  | cons p ps ih =>
    obtain ⟨hp, hps⟩ := List.forall_mem_cons.1 hbound
    obtain ⟨value, hvalue⟩ := Option.isSome_iff_exists.1 hp
    have hput : Piece.value lookup p = value := by rw [Piece.value, hvalue, Option.getD_some]
    have hslot : lookup p.slot.name = some value := hvalue
    rw [List.map_cons, List.cons_append, fill, hslot]
    simp only [ih hps]
    cases fill lookup slots with
    | error e => rfl
    | ok t =>
      simp only [Except.map, written_cons, hput]
      rfl

theorem fill_eq_ok (hbound : ∀ p ∈ ps, (lookup p.name).isSome) :
    fill lookup (ps.map Piece.slot) = .ok (written (Piece.value lookup) ps []) := by
  have happend := fill_append hbound []
  rwa [List.append_nil] at happend

theorem substitute_eq_ok {text last : Text} (h : Decomposes c text ps last)
    (hbound : ∀ p ∈ ps, (lookup p.name).isSome) :
    substitute c lookup text = .ok (written (Piece.value lookup) ps last) := by
  rw [substitute, scan_of_decomposes h, fill_eq_ok hbound]
  simp only [written, List.append_nil]

theorem substitute_eq_error {text rest : Text} {e : PlaceholderError} (h : Reads c text ps rest)
    (hgood : ∀ p ∈ ps, p.name ≠ [] ∧ (lookup p.name).isSome)
    (hoffends : Offends c lookup text rest e) : substitute c lookup text = .error e := by
  have hnamed : ∀ p ∈ ps, p.name ≠ [] := fun p hp => (hgood p hp).1
  have hbound : ∀ p ∈ ps, (lookup p.name).isSome := fun p hp => (hgood p hp).2
  cases hoffends with
  | unclosed htext hopen hclose =>
    have hmalformed : Offends c lookup text rest _ := .unclosed htext hopen hclose
    rw [substitute, scan_of_malformed h hnamed hmalformed, fill_eq_ok hbound]
  | blank htext hopen hclose hblank =>
    have hmalformed : Offends c lookup text rest _ := .blank htext hopen hclose hblank
    rw [substitute, scan_of_malformed h hnamed hmalformed, fill_eq_ok hbound]
  | undefined hopen hclose hname hnone =>
    simp only [substitute, scan, scanFrom_of_reads h hnamed, fill_append hbound,
      scanFrom_of_closed _ hopen hclose, if_neg hname]
    simp only [fill, hnone]
    rfl

end

/-- Substitution succeeds exactly for a line with a decomposition in which each name has a value,
and puts the values in the places of the placeholders. There is at most one decomposition. Otherwise
the first placeholder that offends is refused. The scan makes no more rounds than the line has code
points. -/
theorem substitute_iff_decomposes (c : Conventions) (vars : Bindings Text) (text : Text) :
    (∀ r, substitute c vars.get? text = .ok r ↔
      ∃ ps last, Decomposes c text ps last ∧ (∀ p ∈ ps, (vars.get? p.name).isSome) ∧
        r = written (Piece.value vars.get?) ps last) ∧
    (∀ ps last ps' last', Decomposes c text ps last → Decomposes c text ps' last' →
      ps = ps' ∧ last = last') ∧
    (∀ e, substitute c vars.get? text = .error e ↔
      ∃ ps rest, Reads c text ps rest ∧
        (∀ p ∈ ps, p.name ≠ [] ∧ (vars.get? p.name).isSome) ∧
        Offends c vars.get? text rest e) ∧
    (scan c text).slots.length ≤ text.length := by
  obtain ⟨ps, rest, hreads, hgood, hend⟩ := exists_ending c vars.get? text
  have hbound : ∀ p ∈ ps, (vars.get? p.name).isSome := fun p hp => (hgood p hp).2
  have hdecomposes (hclosed : ¬c.opening <:+: rest) : Decomposes c text ps rest :=
    ⟨hreads, fun p hp => (hgood p hp).1, hclosed⟩
  refine ⟨fun r => ⟨fun hr => ?_, ?_⟩, fun _ _ _ _ h h' => h.unique h', fun e => ⟨fun he => ?_, ?_⟩,
    length_slots_scanFrom_le c 0 text⟩
  · rcases hend with hclosed | ⟨e, hoffends⟩
    · have hsub := substitute_eq_ok (hdecomposes hclosed) hbound
      exact ⟨ps, rest, hdecomposes hclosed, hbound, Except.ok.inj (hr.symm.trans hsub)⟩
    · rw [substitute_eq_error hreads hgood hoffends] at hr
      cases hr
  · rintro ⟨ps', last', h, hbound', rfl⟩
    exact substitute_eq_ok h hbound'
  · rcases hend with hclosed | ⟨e', hoffends⟩
    · rw [substitute_eq_ok (hdecomposes hclosed) hbound] at he
      cases he
    · rw [substitute_eq_error hreads hgood hoffends] at he
      obtain rfl := Except.error.inj he
      exact ⟨ps, rest, hreads, hgood, hoffends⟩
  · rintro ⟨ps', rest', h, hgood', hoffends⟩
    exact substitute_eq_error h hgood' hoffends

/-- A value is not scanned again, and the first of two closing texts ends the placeholder. -/
example :
    substitute {} (Assoc.get? [("a", "$\x7bb\x7d"), ("$\x7bb", "x")])
        "1$\x7b a \x7d2$\x7b$\x7bb\x7d\x7d" =
      .ok "1$\x7bb\x7d2x\x7d" := by
  decide +kernel

end LineSpec.Template
