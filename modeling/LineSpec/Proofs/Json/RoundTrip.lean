import LineSpec.Proofs.Json.Bounds
/-!
# Data that is read back

Data within the bounds of what a text can write (`Json.Fits`) that holds neither numbers that are
not whole nor surrogates (`Json.Plain`) is read back from the text that is written for it
(`Json.read_toChars`). The text consists of line feeds and printable ASCII
(`Json.isWritten_of_mem_write`).
-/

namespace LineSpec

/-- A name that is not bound yet is bound at the end. -/
theorem Assoc.bind_of_notMem {κ α : Type} [DecidableEq κ] {b : Assoc κ α} {name : κ}
    (h : name ∉ b.names) (value : α) : b.bind name value = b ++ [(name, value)] := by
  induction b with
  | nil => rfl
  | cons p b ih =>
    rw [names, List.map_cons, List.mem_cons, not_or] at h
    rw [bind, if_neg (by simpa using Ne.symm h.1), ih h.2]
    rfl

theorem Assoc.notMem_names_of_nodup {κ α : Type} {b b' : Assoc κ α} {name : κ} {value : α}
    (h : (names (b ++ (name, value) :: b')).Nodup) : name ∉ b.names := by
  rw [names, List.map_append, List.nodup_append] at h
  exact fun hmem => h.2.2 name hmem name List.mem_cons_self rfl

namespace Json

/-- Data without numbers that are not whole and without surrogates. -/
inductive Plain : Json → Prop
  | null : Plain .null
  | bool (b : Bool) : Plain (.bool b)
  | int (n : Int) : Plain (.int n)
  | text {t : Text} (points : t.Plain) : Plain (.text t)
  | array {items : List Json} (each : ∀ j ∈ items, Plain j) : Plain (.array items)
  | object {members : Bindings Json} (names : ∀ p ∈ members, p.1.Plain)
      (each : ∀ p ∈ members, Plain p.2) : Plain (.object members)

/-! ## Checking for plain data -/

mutual

/-- Whether data is plain. -/
def isPlain : Json → Bool
  | null | bool _ | int _ => true
  | float _ => false
  | text t => decide t.Plain
  | array items => itemsPlain items
  | object members => membersPlain members

/-- Whether all items of an array are plain. -/
def itemsPlain : List Json → Bool
  | [] => true
  | item :: items => isPlain item && itemsPlain items

/-- Whether all members of an object are plain, and their names hold no surrogate. -/
def membersPlain : List (Text × Json) → Bool
  | [] => true
  | (name, value) :: members =>
    decide name.Plain && isPlain value && membersPlain members

end

theorem itemsPlain_iff {items : List Json} :
    itemsPlain items = true ↔ ∀ j ∈ items, isPlain j = true := by
  induction items with
  | nil => simp [itemsPlain]
  | cons item items ih => simp [itemsPlain, ih]

theorem membersPlain_iff {members : Bindings Json} :
    membersPlain members = true ↔
      ∀ p ∈ members, p.1.Plain ∧ isPlain p.2 = true := by
  induction members with
  | nil => simp [membersPlain]
  | cons member members ih => simp [membersPlain, ih]

theorem Plain.isPlain {j : Json} (h : j.Plain) : j.isPlain = true := by
  induction h with
  | null | bool | int => rfl
  | text points => exact decide_eq_true points
  | array _ ih => exact itemsPlain_iff.2 ih
  | object names _ ih => exact membersPlain_iff.2 fun p hp => ⟨names p hp, ih p hp⟩

mutual

theorem plain_of_isPlain : ∀ {j : Json}, j.isPlain = true → j.Plain
  | null, _ => .null
  | bool b, _ => .bool b
  | int n, _ => .int n
  | text _, h => .text (of_decide_eq_true h)
  | array _, h => .array (plain_of_itemsPlain h)
  | object _, h =>
    .object (fun p hp => ((membersPlain_iff.1 h) p hp).1) (plain_of_membersPlain h)

theorem plain_of_itemsPlain : ∀ {items : List Json}, itemsPlain items = true →
    ∀ j ∈ items, j.Plain
  | [], _ => List.forall_mem_nil _
  | item :: items, h => by
    rw [itemsPlain, Bool.and_eq_true] at h
    exact List.forall_mem_cons.2 ⟨plain_of_isPlain h.1, plain_of_itemsPlain h.2⟩

theorem plain_of_membersPlain : ∀ {members : Bindings Json}, membersPlain members = true →
    ∀ p ∈ members, p.2.Plain
  | [], _ => List.forall_mem_nil _
  | (name, value) :: members, h => by
    rw [membersPlain, Bool.and_eq_true, Bool.and_eq_true] at h
    exact List.forall_mem_cons.2 ⟨plain_of_isPlain h.1.2, plain_of_membersPlain h.2⟩

end

instance (j : Json) : Decidable j.Plain := decidable_of_iff _ ⟨plain_of_isPlain, Plain.isPlain⟩

/-! ## White space -/

theorem skipSpace_newLine (level : Nat) (cs : List Char) :
    skipSpace (newLine level ++ cs) = skipSpace cs := by
  have hspaces : ∀ c ∈ newLine level, isSpace c = true := by
    intro c hc
    rcases List.mem_cons.1 hc with rfl | hc
    · rfl
    · obtain rfl := List.eq_of_mem_replicate hc
      rfl
  exact List.dropWhile_append_of_pos hspaces

theorem skipSpace_of_head {c : Char} (hc : isSpace c = false) (cs : List Char) :
    skipSpace (c :: cs) = c :: cs :=
  List.dropWhile_cons_of_neg (by simp [hc])

/-- What is written begins with a character that is no white space and ends no array. -/
theorem exists_write_eq_cons (level : Nat) {j : Json} (hj : j.Plain) :
    ∃ c cs, write level j = c :: cs ∧ isSpace c = false ∧ c ≠ ']' := by
  cases hj with
  | null => exact ⟨_, _, rfl, rfl, by decide⟩
  | bool b => cases b <;> exact ⟨_, _, rfl, rfl, by decide⟩
  | int n =>
    obtain ⟨c, cs, hwrite, hc⟩ := exists_toString_eq_cons n
    refine ⟨c, cs, by rw [write, hwrite], ?_, ne_of_beginsNumber hc (by decide) (by decide)⟩
    simp [isSpace, ne_of_beginsNumber hc]
  | text => exact ⟨_, _, by rw [write]; rfl, rfl, by decide⟩
  | @array items => cases items <;> exact ⟨_, _, by rw [write], rfl, by decide⟩
  | @object members => cases members <;> exact ⟨_, _, by rw [write], rfl, by decide⟩

theorem skipSpace_write (level : Nat) {j : Json} (hj : j.Plain) (cs : List Char) :
    skipSpace (write level j ++ cs) = write level j ++ cs := by
  obtain ⟨c, ds, hwrite, hspace, -⟩ := exists_write_eq_cons level hj
  rw [hwrite]
  exact skipSpace_of_head hspace _

/-! ## Steps of reading -/

section
variable {left fuel : Nat} {cs rest rest' : List Char}

/-- What begins with neither a bracket nor a brace is no array and no object. -/
theorem readValue_scalar {c : Char} (hbracket : c ≠ '[') (hbrace : c ≠ '\x7b') :
    readValue left (fuel + 1) (c :: cs) = readScalar (c :: cs) := by
  rw [readValue]
  · exact fun _ h => hbracket (List.cons.inj h).1
  · exact fun _ h => hbrace (List.cons.inj h).1

theorem readValue_array {c : Char} (hskip : skipSpace cs = c :: rest) (hc : c ≠ ']') :
    readValue (left + 1) (fuel + 1) ('[' :: cs) =
      (readItems left fuel [] (c :: rest)).map fun p => (array p.1.reverse, p.2) := by
  rw [readValue]
  simp only [hskip]
  split
  next h => exact absurd (List.cons.inj h).1 hc
  next => rfl

theorem readValue_object {c : Char} (hskip : skipSpace cs = c :: rest) (hc : c ≠ '\x7d') :
    readValue (left + 1) (fuel + 1) ('\x7b' :: cs) =
      (readMembers left fuel [] (c :: rest)).map fun p => (object p.1, p.2) := by
  rw [readValue]
  simp only [hskip]
  split
  next h => exact absurd (List.cons.inj h).1 hc
  next => rfl

section
variable {item : Json} {before : List Json} (hitem : readValue left fuel cs = .ok (item, rest))

include hitem

theorem readItems_last (hskip : skipSpace rest = ']' :: rest') :
    readItems left (fuel + 1) before cs = .ok (item :: before, rest') := by
  rw [readItems, hitem]
  simp only [hskip]

theorem readItems_more (hskip : skipSpace rest = ',' :: rest') :
    readItems left (fuel + 1) before cs =
      readItems left fuel (item :: before) (skipSpace rest') := by
  rw [readItems, hitem]
  simp only [hskip]

end

section
variable {name : Text} {value : Json} {before : Bindings Json} {afterName afterColon : List Char}
  (hname : readString ('"' :: cs) cs = .ok (name, afterName))
  (hcolon : skipSpace afterName = ':' :: afterColon)
  (hvalue : readValue left fuel (skipSpace afterColon) = .ok (value, rest))

include hname hcolon hvalue

theorem readMembers_last (hskip : skipSpace rest = '\x7d' :: rest') :
    readMembers left (fuel + 1) before ('"' :: cs) = .ok (before.bind name value, rest') := by
  rw [readMembers]
  simp only [hname, hcolon, hvalue, hskip]

theorem readMembers_more (hskip : skipSpace rest = ',' :: rest') :
    readMembers left (fuel + 1) before ('"' :: cs) =
      readMembers left fuel (before.bind name value) (skipSpace rest') := by
  rw [readMembers]
  simp only [hname, hcolon, hvalue, hskip]

end

end

/-! ## Values -/

/-- With enough fuel a value is read back, with up to `left` levels, from what is written for it,
whatever follows. -/
def ReadsBack (left : Nat) (j : Json) : Prop :=
  ∀ level fuel rest, EndsNumber rest → 2 * (write level j ++ rest).length ≤ fuel →
    readValue left fuel (write level j ++ rest) = .ok (j, rest)

theorem endsNumber_cons {c : Char} (hc : c = ',' ∨ c = '\n') (rest : List Char) :
    EndsNumber (c :: rest) := by
  intro d hd
  obtain rfl := Option.some.inj hd
  rcases hc with rfl | rfl <;> decide

section
variable {left : Nat} {rest : List Char}

/-- A value that is neither an array nor an object is read back where it is read on its own. -/
theorem readsBack_of_readScalar {j : Json}
    (hhead : ∀ level, ∃ c cs, write level j = c :: cs ∧ c ≠ '[' ∧ c ≠ '\x7b')
    (hread : ∀ level rest, EndsNumber rest → readScalar (write level j ++ rest) = .ok (j, rest)) :
    ReadsBack left j := by
  intro level fuel rest hrest hfuel
  obtain ⟨c, cs, hwrite, hbracket, hbrace⟩ := hhead level
  have hscalar := hread level rest hrest
  rw [hwrite, List.cons_append] at hscalar hfuel ⊢
  obtain ⟨fuel, rfl⟩ : ∃ k, fuel = k + 1 := ⟨fuel - 1, by rw [List.length_cons] at hfuel; omega⟩
  rw [readValue_scalar hbracket hbrace, hscalar]

theorem readsBack_int {n : Int} (hn : digitCount n ≤ Decimal.maxDigits) :
    ReadsBack left (.int n) := by
  refine readsBack_of_readScalar (fun level => ?_) fun level rest hrest => ?_
  · obtain ⟨c, cs, hwrite, hc⟩ := exists_toString_eq_cons n
    exact ⟨c, cs, by rw [write, hwrite], ne_of_beginsNumber hc (by decide) (by decide),
      ne_of_beginsNumber hc (by decide) (by decide)⟩
  · rw [write]
    exact readScalar_int hn hrest

theorem readsBack_text {t : Text} (ht : t.Plain) : ReadsBack left (.text t) := by
  refine readsBack_of_readScalar
    (fun level => ⟨'"', _, by rw [write]; rfl, by decide, by decide⟩) fun level rest hrest => ?_
  rw [write, writeString, List.cons_append, List.append_assoc]
  change (readString _ (t.flatMap writePoint ++ '"' :: rest)).map _ = _
  rw [readString_write _ ht]
  rfl

theorem skipSpace_writeString (t : Text) (rest : List Char) :
    skipSpace (writeString t ++ rest) = writeString t ++ rest :=
  skipSpace_of_head rfl _

theorem writeItems_cons_append (level : Nat) (item : Json) (items : List Json) :
    writeItems level (item :: items) ++ rest =
      ',' :: (newLine level ++ (write level item ++ (writeItems level items ++ rest))) := by
  simp [writeItems]

theorem writeMembers_cons_append (level : Nat) (name : Text) (value : Json)
    (members : Bindings Json) :
    writeMembers level ((name, value) :: members) ++ rest =
      ',' :: (newLine level ++ (writeString name ++ (':' :: ' ' :: (write level value ++
        (writeMembers level members ++ rest))))) := by
  simp [writeMembers]

theorem writeString_append (t : Text) :
    writeString t ++ rest = '"' :: (t.flatMap writePoint ++ '"' :: rest) := by
  simp [writeString]

/-- The items of an array are read back if each of them is. -/
theorem readItems_write (level outer : Nat) {item : Json} {items : List Json}
    (hitem : ReadsBack left item) (hitems : ∀ j ∈ items, ReadsBack left j ∧ j.Plain)
    (before : List Json) {fuel : Nat}
    (hfuel : 2 * (write level item ++ (writeItems level items ++
      (newLine outer ++ ']' :: rest))).length < fuel) :
    readItems left fuel before (write level item ++ (writeItems level items ++
      (newLine outer ++ ']' :: rest))) = .ok (items.reverse ++ item :: before, rest) := by
  obtain ⟨fuel, rfl⟩ := Nat.exists_eq_add_of_lt (Nat.zero_lt_of_lt hfuel)
  rw [Nat.zero_add] at hfuel ⊢
  induction items generalizing item before fuel with
  | nil =>
    have hread := hitem level fuel _ (endsNumber_cons (.inr rfl) _) (Nat.lt_succ_iff.1 hfuel)
    exact readItems_last hread (skipSpace_newLine _ _)
  | cons next items ih =>
    obtain ⟨⟨hnext, hplain⟩, hitems⟩ := List.forall_mem_cons.1 hitems
    rw [writeItems_cons_append] at hfuel ⊢
    have hread := hitem level fuel _ (endsNumber_cons (.inl rfl) _) (Nat.lt_succ_iff.1 hfuel)
    have hless : 2 * (write level next ++ (writeItems level items ++
        (newLine outer ++ ']' :: rest))).length < fuel := by
      simp only [List.length_append, List.length_cons] at hfuel ⊢
      omega
    obtain ⟨fuel, rfl⟩ := Nat.exists_eq_add_of_lt (Nat.zero_lt_of_lt hless)
    rw [Nat.zero_add] at hread hless ⊢
    rw [readItems_more hread (skipSpace_of_head rfl _), skipSpace_newLine,
      skipSpace_write level hplain, ih hnext hitems (item :: before) fuel hless, List.reverse_cons,
      List.append_assoc]
    rfl

theorem readsBack_array {items : List Json} (hitems : ∀ j ∈ items, ReadsBack left j ∧ j.Plain) :
    ReadsBack (left + 1) (.array items) := by
  intro level fuel rest hrest hfuel
  cases items with
  | nil =>
    obtain ⟨fuel, rfl⟩ : ∃ k, fuel = k + 1 := ⟨fuel - 1, by simp [write] at hfuel; omega⟩
    rw [write]
    rfl
  | cons item items =>
    obtain ⟨⟨hitem, hplain⟩, hitems⟩ := List.forall_mem_cons.1 hitems
    obtain ⟨c, cs, hwrite, -, hc⟩ := exists_write_eq_cons (level + 1) hplain
    have htext : write level (.array (item :: items)) ++ rest =
        '[' :: (newLine (level + 1) ++ (write (level + 1) item ++ (writeItems (level + 1) items ++
          (newLine level ++ ']' :: rest)))) := by
      simp [write]
    rw [htext] at hfuel ⊢
    have hless : 2 * (write (level + 1) item ++ (writeItems (level + 1) items ++
        (newLine level ++ ']' :: rest))).length < fuel - 1 := by
      simp only [List.length_append, List.length_cons] at hfuel ⊢
      omega
    obtain ⟨fuel, rfl⟩ : ∃ k, fuel = k + 1 := ⟨fuel - 1, by omega⟩
    have hread := readItems_write (level + 1) level hitem hitems [] hless
    have hskip := (skipSpace_newLine (level + 1) _).trans (skipSpace_write (level + 1) hplain
      (writeItems (level + 1) items ++ (newLine level ++ ']' :: rest)))
    rw [hwrite, List.cons_append] at hread hskip
    rw [hwrite, List.cons_append, readValue_array hskip hc]
    refine (congrArg _ hread).trans ?_
    simp [Except.map]

/-- The name and the value of a member are read back. -/
structure MemberReadsBack (left : Nat) (name : Text) (value : Json) : Prop where
  points : name.Plain
  plain : value.Plain
  reads : ReadsBack left value

section
variable {level fuel : Nat} {name : Text} {value : Json} {before : Bindings Json}
  {after : List Char} (hmember : MemberReadsBack left name value)
  (hafter : EndsNumber after)
  (hfuel : 2 * (writeString name ++ (':' :: ' ' :: (write level value ++ after))).length < fuel + 1)

include hmember hafter hfuel

theorem readValue_write_member :
    readValue left fuel (skipSpace (' ' :: (write level value ++ after))) = .ok (value, after) := by
  refine (congrArg _ (skipSpace_write level hmember.plain after)).trans ?_
  refine hmember.reads level fuel after hafter ?_
  simp only [List.length_append, List.length_cons] at hfuel ⊢
  omega

theorem readMembers_write_last (hskip : skipSpace after = '\x7d' :: rest) :
    readMembers left (fuel + 1) before
        (writeString name ++ (':' :: ' ' :: (write level value ++ after))) =
      .ok (before.bind name value, rest) := by
  have hvalue := readValue_write_member hmember hafter hfuel
  rw [writeString_append]
  exact readMembers_last (readString_write _ hmember.points _) (skipSpace_of_head rfl _) hvalue
    hskip

theorem readMembers_write_more (hskip : skipSpace after = ',' :: rest) :
    readMembers left (fuel + 1) before
        (writeString name ++ (':' :: ' ' :: (write level value ++ after))) =
      readMembers left fuel (before.bind name value) (skipSpace rest) := by
  have hvalue := readValue_write_member hmember hafter hfuel
  rw [writeString_append]
  exact readMembers_more (readString_write _ hmember.points _) (skipSpace_of_head rfl _) hvalue
    hskip

end

/-- The members of an object are read back if each of them is. -/
theorem readMembers_write (level outer : Nat) {name : Text} {value : Json}
    {members before : Bindings Json} (hmember : MemberReadsBack left name value)
    (hmembers : ∀ p ∈ members, MemberReadsBack left p.1 p.2)
    (hdistinct : (Assoc.names (before ++ (name, value) :: members)).Nodup) {fuel : Nat}
    (hfuel : 2 * (writeString name ++ (':' :: ' ' :: (write level value ++
      (writeMembers level members ++ (newLine outer ++ '\x7d' :: rest))))).length < fuel) :
    readMembers left fuel before (writeString name ++ (':' :: ' ' :: (write level value ++
      (writeMembers level members ++ (newLine outer ++ '\x7d' :: rest))))) =
        .ok (before ++ (name, value) :: members, rest) := by
  obtain ⟨fuel, rfl⟩ := Nat.exists_eq_add_of_lt (Nat.zero_lt_of_lt hfuel)
  rw [Nat.zero_add] at hfuel ⊢
  have hfresh := Assoc.notMem_names_of_nodup hdistinct
  induction members generalizing name value before fuel with
  | nil =>
    rw [writeMembers, List.nil_append] at hfuel ⊢
    have hends : EndsNumber (newLine outer ++ '\x7d' :: rest) := endsNumber_cons (.inr rfl) _
    rw [← Assoc.bind_of_notMem hfresh]
    exact readMembers_write_last hmember hends hfuel (skipSpace_newLine _ _)
  | cons next members ih =>
    obtain ⟨hnext, hmembers⟩ := List.forall_mem_cons.1 hmembers
    rw [writeMembers_cons_append] at hfuel ⊢
    have hless : 2 * (writeString next.1 ++ (':' :: ' ' :: (write level next.2 ++
        (writeMembers level members ++ (newLine outer ++ '\x7d' :: rest))))).length < fuel := by
      simp only [List.length_append, List.length_cons] at hfuel ⊢
      omega
    obtain ⟨fuel, rfl⟩ := Nat.exists_eq_add_of_lt (Nat.zero_lt_of_lt hless)
    rw [Nat.zero_add] at hfuel hless ⊢
    rw [List.append_cons before] at hdistinct ⊢
    rw [readMembers_write_more hmember (endsNumber_cons (.inl rfl) _) hfuel
      (skipSpace_of_head rfl _), Assoc.bind_of_notMem hfresh, skipSpace_newLine,
      skipSpace_writeString]
    exact ih hnext hmembers hdistinct fuel hless (Assoc.notMem_names_of_nodup hdistinct)

theorem readsBack_object {members : Bindings Json} (hdistinct : members.names.Nodup)
    (hmembers : ∀ p ∈ members, MemberReadsBack left p.1 p.2) :
    ReadsBack (left + 1) (.object members) := by
  intro level fuel rest hrest hfuel
  cases members with
  | nil =>
    obtain ⟨fuel, rfl⟩ : ∃ k, fuel = k + 1 := ⟨fuel - 1, by simp [write] at hfuel; omega⟩
    rw [write]
    rfl
  | cons member members =>
    obtain ⟨name, value⟩ := member
    obtain ⟨hmember, hmembers⟩ := List.forall_mem_cons.1 hmembers
    have htext : write level (.object ((name, value) :: members)) ++ rest =
        '\x7b' :: (newLine (level + 1) ++ (writeString name ++ (':' :: ' ' ::
          (write (level + 1) value ++ (writeMembers (level + 1) members ++
            (newLine level ++ '\x7d' :: rest)))))) := by
      simp [write]
    rw [htext] at hfuel ⊢
    have hless : 2 * (writeString name ++ (':' :: ' ' :: (write (level + 1) value ++
        (writeMembers (level + 1) members ++ (newLine level ++ '\x7d' :: rest))))).length <
          fuel - 1 := by
      simp only [List.length_append, List.length_cons] at hfuel ⊢
      omega
    obtain ⟨fuel, rfl⟩ : ∃ k, fuel = k + 1 := ⟨fuel - 1, by omega⟩
    have hread : readMembers left fuel [] _ = .ok ([] ++ (name, value) :: members, rest) :=
      readMembers_write (level + 1) level hmember hmembers hdistinct hless
    have hskip := (skipSpace_newLine (level + 1) _).trans (skipSpace_writeString name
      (':' :: ' ' :: (write (level + 1) value ++
        (writeMembers (level + 1) members ++ (newLine level ++ '\x7d' :: rest)))))
    rw [writeString_append] at hskip hread ⊢
    rw [readValue_object hskip (by decide)]
    exact (congrArg _ hread).trans rfl

/-- Data that can be written is read back. -/
theorem readsBack_of_fits {j : Json} (hfits : Fits left j) (hplain : j.Plain) :
    ReadsBack left j := by
  induction hfits with
  | null =>
    exact readsBack_of_readScalar (fun _ => ⟨_, _, rfl, by decide, by decide⟩) fun _ _ _ => rfl
  | bool b =>
    cases b
    all_goals
      exact readsBack_of_readScalar (fun _ => ⟨_, _, rfl, by decide, by decide⟩) fun _ _ _ => rfl
  | int digits => exact readsBack_int digits
  | float x => cases hplain
  | text t =>
    cases hplain with
    | text points => exact readsBack_text points
  | array each ih =>
    cases hplain with
    | array plain => exact readsBack_array fun j hj => ⟨ih j hj (plain j hj), plain j hj⟩
  | object distinct each ih =>
    cases hplain with
    | object names plain =>
      exact readsBack_object distinct fun p hp => ⟨names p hp, plain p hp, ih p hp (plain p hp)⟩

end

/-! ## The characters of a text -/

/-- A character of what is written: a line feed, or printable ASCII. -/
def IsWritten (c : Char) : Prop := c = '\n' ∨ 32 ≤ c.toNat ∧ c.toNat ≤ 126

theorem IsWritten.toNat_lt {c : Char} (h : IsWritten c) : c.toNat < 0x80 := by
  rcases h with rfl | h
  · decide
  · omega

instance (c : Char) : Decidable (IsWritten c) := inferInstanceAs (Decidable (_ ∨ _))

/-- A given text can be looked at character by character. -/
theorem isWritten_of_all {cs : List Char} (h : (cs.all fun c => decide (IsWritten c)) = true) :
    ∀ c ∈ cs, IsWritten c :=
  fun c hc => of_decide_eq_true (List.all_eq_true.1 h c hc)

theorem isWritten_of_mem_hex {width n : Nat} {c : Char} (h : c ∈ Text.hex width n) :
    IsWritten c := by
  induction width generalizing n with
  | zero => cases h
  | succ width ih =>
    rcases List.mem_append.1 h with h | h
    · exact ih h
    · obtain rfl := List.mem_singleton.1 h
      have hdigit : ∀ d < 16, IsWritten (Char.ofNat (if d < 10 then 48 + d else 87 + d)) := by
        decide
      exact hdigit _ (Nat.mod_lt _ (by omega))

theorem isWritten_of_mem_unitEscape {n : Nat} {c : Char} (h : c ∈ unitEscape n) : IsWritten c := by
  rcases List.mem_cons.1 h with rfl | h
  · decide
  rcases List.mem_cons.1 h with rfl | h
  · decide
  · exact isWritten_of_mem_hex h

theorem isWritten_of_mem_writePoint {p : CodePoint} {c : Char} (h : c ∈ writePoint p) :
    IsWritten c := by
  have hshort : ∀ d : Char, IsWritten d → c ∈ ['\\', d] → IsWritten c := by
    rintro d hd hc
    rcases List.mem_pair.1 hc with rfl | rfl
    · decide
    · exact hd
  simp only [writePoint, beq_iff_eq, Bool.and_eq_true, decide_eq_true_eq] at h
  split at h
  · exact hshort _ (by decide) h
  split at h
  · exact hshort _ (by decide) h
  split at h
  · exact hshort _ (by decide) h
  split at h
  · exact hshort _ (by decide) h
  split at h
  · exact hshort _ (by decide) h
  split at h
  · exact hshort _ (by decide) h
  split at h
  · exact hshort _ (by decide) h
  split at h
  next hrange =>
    obtain rfl := List.mem_singleton.1 h
    have hval : (Char.ofNat p.val).toNat = p.val := Text.Utf8.toNat_charOfNat (.inl (by omega))
    exact .inr (by omega)
  split at h
  · exact isWritten_of_mem_unitEscape h
  · exact (List.mem_append.1 h).elim isWritten_of_mem_unitEscape isWritten_of_mem_unitEscape

theorem isWritten_of_mem_writeString {t : Text} {c : Char} (h : c ∈ writeString t) :
    IsWritten c := by
  rw [writeString, List.mem_cons, List.mem_append, List.mem_singleton] at h
  rcases h with rfl | h | rfl
  · decide
  · obtain ⟨p, -, hc⟩ := List.mem_flatMap.1 h
    exact isWritten_of_mem_writePoint hc
  · decide

theorem isWritten_of_mem_newLine {level : Nat} {c : Char} (h : c ∈ newLine level) :
    IsWritten c := by
  rcases List.mem_cons.1 h with rfl | h
  · decide
  · obtain rfl := List.eq_of_mem_replicate h
    decide

theorem isWritten_of_mem_toString {n : Int} {c : Char} (h : c ∈ (toString n).toList) :
    IsWritten c := by
  rw [toList_toString, List.mem_append] at h
  rcases h with h | h
  · split at h
    · obtain rfl := List.mem_singleton.1 h
      decide
    · cases h
  · have hdigit := Char.isDigit_iff_toNat.1
      (Nat.isDigit_of_mem_toDigits (by decide) (by decide) h)
    have h0 : '0'.toNat = 48 := rfl
    have h9 : '9'.toNat = 57 := rfl
    exact .inr (by omega)

theorem isWritten_of_mem_writeItems {level : Nat} {items : List Json}
    (h : ∀ j ∈ items, ∀ level, ∀ c ∈ write level j, IsWritten c) :
    ∀ c ∈ writeItems level items, IsWritten c := by
  induction items with
  | nil => exact List.forall_mem_nil _
  | cons item items ih =>
    obtain ⟨hitem, hitems⟩ := List.forall_mem_cons.1 h
    rw [writeItems, List.forall_mem_cons, List.forall_mem_append, List.forall_mem_append]
    exact ⟨by decide, ⟨fun _ => isWritten_of_mem_newLine, hitem _⟩, ih hitems⟩

theorem isWritten_of_mem_member {level : Nat} {name : Text} {value : Json} {cs : List Char}
    (hvalue : ∀ level, ∀ c ∈ write level value, IsWritten c) (hcs : ∀ c ∈ cs, IsWritten c) :
    ∀ c ∈ newLine level ++ writeString name ++ [':', ' '] ++ write level value ++ cs,
      IsWritten c := by
  simp only [List.forall_mem_append]
  exact ⟨⟨⟨⟨fun _ => isWritten_of_mem_newLine, fun _ => isWritten_of_mem_writeString⟩,
    isWritten_of_all (by decide)⟩, hvalue _⟩, hcs⟩

theorem isWritten_of_mem_writeMembers {level : Nat} {members : Bindings Json}
    (h : ∀ p ∈ members, ∀ level, ∀ c ∈ write level p.2, IsWritten c) :
    ∀ c ∈ writeMembers level members, IsWritten c := by
  induction members with
  | nil => exact List.forall_mem_nil _
  | cons member members ih =>
    obtain ⟨hmember, hmembers⟩ := List.forall_mem_cons.1 h
    rw [writeMembers, List.forall_mem_cons]
    exact ⟨by decide, isWritten_of_mem_member hmember (ih hmembers)⟩

/-- What is written consists of line feeds and printable ASCII. -/
theorem isWritten_of_mem_write {j : Json} (hplain : j.Plain) (level : Nat) :
    ∀ c ∈ write level j, IsWritten c := by
  induction hplain generalizing level with
  | null =>
    rw [write]
    exact isWritten_of_all (by decide)
  | bool b =>
    rw [write]
    cases b <;> exact isWritten_of_all (by decide)
  | int n => exact fun c hc => isWritten_of_mem_toString (by rwa [write] at hc)
  | text => exact fun c hc => isWritten_of_mem_writeString (by rwa [write] at hc)
  | @array items each ih =>
    cases items with
    | nil =>
      rw [write]
      exact isWritten_of_all (by decide)
    | cons item items =>
      obtain ⟨hitem, hitems⟩ := List.forall_mem_cons.1 fun j hj level => ih j hj level
      simp only [write, List.forall_mem_cons, List.forall_mem_append]
      exact ⟨by decide, ⟨⟨⟨fun _ => isWritten_of_mem_newLine, hitem _⟩,
        isWritten_of_mem_writeItems hitems⟩, fun _ => isWritten_of_mem_newLine⟩,
        by decide, List.forall_mem_nil _⟩
  | @object members names each ih =>
    cases members with
    | nil =>
      rw [write]
      exact isWritten_of_all (by decide)
    | cons member members =>
      obtain ⟨hmember, hmembers⟩ := List.forall_mem_cons.1 fun p hp level => ih p hp level
      rw [write, List.forall_mem_cons, List.forall_mem_append, List.forall_mem_append]
      exact ⟨by decide, ⟨isWritten_of_mem_member hmember (isWritten_of_mem_writeMembers hmembers),
        fun _ => isWritten_of_mem_newLine⟩, isWritten_of_all (by decide)⟩

/-! ## Texts -/

/-- Data is read back from the text that is written for it, with a line feed at the end. -/
theorem read_toChars {j : Json} (hfits : Fits maxDepth j) (hplain : j.Plain) :
    read (j.toChars ++ ['\n']) = .ok j := by
  obtain ⟨c, cs, hwrite, -⟩ := exists_write_eq_cons 0 hplain
  have hmark : (j.toChars ++ ['\n']).head? ≠ some (Char.ofNat 0xFEFF) := by
    have hc := isWritten_of_mem_write hplain 0 c (hwrite ▸ List.mem_cons_self)
    rw [toChars, hwrite]
    intro heq
    obtain rfl := Option.some.inj heq
    exact absurd hc (by decide)
  have hread := readsBack_of_fits hfits hplain 0 (2 * (j.toChars ++ ['\n']).length + 2) ['\n']
    (endsNumber_cons (.inr rfl) _) (Nat.le_add_right _ _)
  rw [read, mapError_eq_ok_iff, readAll, if_neg (by simpa using hmark), toChars,
    skipSpace_write 0 hplain]
  rw [toChars] at hread
  rw [hread]
  rfl

end Json

end LineSpec
