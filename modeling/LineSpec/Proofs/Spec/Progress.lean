import LineSpec.Proofs.Spec.Partition
import LineSpec.Spec.Cursor
/-!
# Reading comes to an end

A reader that looks at one token at a time goes round and round: to the next item, to its
parameters, to its body, to the next item. It does not go round in one place, since a token that is
no end belongs to the parameters of an item or to its body. So each way round takes up a token, and
the reader ends, for every list of tokens, with the document that the tokens before the first end
make up (`endsWithin_ofTokens`).

What a state will come to is a function of the tokens that are still ahead, `Cursor.outcome`. A step
leaves it as it is (`Cursor.outcome_step`), and takes away from `Cursor.rank`
(`Cursor.rank_step_lt`).
-/

namespace LineSpec

/-! ## What becomes of the tokens -/

/-- A parameter token gives the key and the value around the first colon behind the marker,
trimmed. The key is not empty. -/
def Item.GivesParam (c : Conventions) (t : Token) (p : Text × Text) : Prop :=
  t.kind = .marker ∧ p.1 ≠ [] ∧
    ∃ key value, t.text.drop c.item.length = key ++ CodePoint.ofChar ':' :: value ∧
      CodePoint.ofChar ':' ∉ key ∧ p = (Text.trim key, Text.trim value)

/-- A skip or a line of text gives an entry with its own number. -/
inductive Item.GivesEntry : Token → Entry → Prop
  | skip {text : Text} {line : Int} : GivesEntry ⟨.skip, text, line⟩ (.skip line)
  | text {text : Text} {line : Int} : GivesEntry ⟨.text, text, line⟩ (.literal text line)

/-- `UsesUp c part item` says that `item` is made from the tokens `part`, at least one, each of
which gives a parameter or an entry of its body, in order. -/
structure Item.UsesUp (c : Conventions) (part : List Token) (item : Item) : Prop where
  first : ∃ t, part.head? = some t ∧ item.line = t.line
  tokens : ∃ ms ts, part = ms ++ ts ∧ List.Forall₂ (GivesParam c) ms item.params ∧
    List.Forall₂ GivesEntry ts item.body
  distinct : item.params.names.Nodup

/-- `d.UsesUp c ts` says that each of the tokens `ts` goes into one item of `d`, in order. A new
item begins where a parameter token follows one of another kind. -/
def Document.UsesUp (c : Conventions) (ts : List Token) (d : Document) : Prop :=
  ∃ parts, parts.flatten = ts ∧ List.Forall₂ (Item.UsesUp c) parts d.items ∧
    parts.IsChain fun p q => ∃ t ∈ p.getLast?, ∃ u ∈ q.head?, t.kind ≠ .marker ∧ u.kind = .marker

variable {c : Conventions} {source : Option Text} {ts : List Token}

namespace Item

theorem givesParam_of_addParam {t : Token} {p : Text × Text} (hm : t.kind = .marker)
    (h : paramOfLine c t.text = .ok p) : GivesParam c t p := by
  obtain ⟨key, value, hdrop, hmem, hp, hne⟩ := drop_eq_of_paramOfLine h
  exact ⟨hm, hne, key, value, hdrop, hmem, hp⟩

theorem givesEntry_entryOfToken {t : Token} (hm : t.kind ≠ .marker) (hf : t.kind ≠ .finish) :
    GivesEntry t (entryOfToken t) := by
  obtain ⟨kind, text, line⟩ := t
  cases kind with
  | marker => exact absurd rfl hm
  | finish => exact absurd rfl hf
  | skip => exact .skip
  | text => exact .text

/-- An item is made from parameter tokens and the tokens behind them. -/
theorem ofTokens_append {ms : List Token} (hms : ∀ t ∈ ms, t.kind = .marker)
    (hts : ∀ t ∈ ts, t.kind ≠ .marker) :
    ofTokens c source (ms ++ ts) =
      (ms.foldlM (addParam c source) []).map fun params =>
        ⟨params, ts.map entryOfToken, ((ms ++ ts).head?.map Token.line).getD 0⟩ := by
  obtain ⟨htail, hrest⟩ := Parts.cut_of_head? (p := fun t : Token => t.kind == .marker) (l := ts)
    fun t ht => beq_eq_false_iff_ne.2 (hts t (List.mem_of_head? ht))
  have htake : (ms ++ ts).takeWhile (·.kind == .marker) = ms := by
    rw [List.takeWhile_append_of_pos fun t ht => beq_iff_eq.2 (hms t ht), htail, List.append_nil]
  have hdrop : (ms ++ ts).dropWhile (·.kind == .marker) = ts := by
    rw [List.dropWhile_append_of_pos fun t ht => beq_iff_eq.2 (hms t ht), hrest]
  rw [ofTokens, htake, hdrop]
  cases ms.foldlM (addParam c source) [] <;> rfl

/-- An item uses up the tokens that it was read from. -/
theorem usesUp_of_ofTokens {part : List Token} {item : Item} (hne : part ≠ [])
    (hpart : part.IsChain fun t u => Document.sameItem t u = true)
    (hfinish : ∀ t ∈ part, t.kind ≠ .finish) (h : ofTokens c source part = .ok item) :
    UsesUp c part item := by
  have hbody := Parts.eq_false_of_mem_dropWhile (p := fun t : Token => t.kind == .marker)
    (hpart.imp fun t u htu hu => by
      rwa [Document.sameItem, bne, hu, Bool.not_true, Bool.or_false] at htu)
  rw [ofTokens, bind_eq_ok_iff] at h
  obtain ⟨params, hparams, h⟩ := h
  obtain rfl := Except.ok.inj h
  obtain ⟨new, rfl, hnew⟩ := foldlM_addParam_eq_ok hparams
  refine ⟨?_, ⟨_, _,
    (List.takeWhile_append_dropWhile (p := fun t : Token => t.kind == .marker)).symm, ?_, ?_⟩,
    nodup_of_foldlM_addParam hparams⟩
  · obtain ⟨t, ts, rfl⟩ := List.exists_cons_of_ne_nil hne
    exact ⟨t, rfl, rfl⟩
  · have hmarkers : ∀ t ∈ part.takeWhile (·.kind == .marker), t.kind = .marker :=
      fun t ht => beq_iff_eq.1 (List.mem_takeWhile_imp (p := fun t : Token => t.kind == .marker) ht)
    exact ((List.forall₂_and_left _ _).2 ⟨hmarkers, hnew⟩).imp fun t p htp =>
      givesParam_of_addParam htp.1 htp.2
  · rw [List.forall₂_map_right_iff, List.forall₂_same]
    intro t ht
    exact givesEntry_entryOfToken (beq_eq_false_iff_ne.1 (hbody t ht))
      (hfinish t ((List.dropWhile_sublist _).mem ht))

end Item

namespace Document

/-- A document uses up the tokens that it was read from. -/
theorem usesUp_of_ofTokens {d : Document} (h : ofTokens c source ts = .ok d) :
    d.UsesUp c (ts.takeWhile (·.kind != .finish)) := by
  rw [ofTokens, bind_eq_ok_iff] at h
  obtain ⟨items, hitems, h⟩ := h
  obtain rfl := Except.ok.inj h
  have hflat := List.flatten_splitBy sameItem (ts.takeWhile (·.kind != .finish))
  have hpart : ∀ part ∈ (ts.takeWhile (·.kind != .finish)).splitBy sameItem, ∀ item,
      Item.ofTokens c source part = .ok item → Item.UsesUp c part item := by
    intro part hmem item hitem
    refine Item.usesUp_of_ofTokens (List.ne_nil_of_mem_splitBy hmem)
      (List.isChain_of_mem_splitBy hmem) (fun t ht => ?_) hitem
    have htmem : t ∈ ts.takeWhile (·.kind != .finish) :=
      hflat ▸ List.mem_flatten_of_mem hmem ht
    exact bne_iff_ne.1 (List.mem_takeWhile_imp (p := fun t : Token => t.kind != .finish) htmem)
  refine ⟨_, hflat, ?_, ?_⟩
  · exact ((List.forall₂_and_left _ _).2 ⟨hpart, mapM_eq_ok_iff.1 hitems⟩).imp
      fun part item h => h.1 item h.2
  · refine (List.isChain_getLast_head_splitBy sameItem _).imp ?_
    rintro p q ⟨hp, hq, hcut⟩
    refine ⟨_, List.getLast?_eq_some_getLast hp, _, List.head?_eq_some_head hq, ?_⟩
    rwa [sameItem, Bool.or_eq_false_iff, beq_eq_false_iff_ne, bne_eq_false_iff_eq] at hcut

/-! ## One look at a token -/

namespace Cursor

/-- The tokens that the reader has still to take up. -/
def ahead (ts : List Token) (pos : Nat) : List Token :=
  (ts.drop pos).takeWhile (·.kind != .finish)

/-- Either the reader sees an end, and nothing is ahead, or it sees the first of the tokens
ahead. -/
theorem ahead_cases (ts : List Token) (pos : Nat) :
    (tokenAt ts pos).kind = .finish ∧ ahead ts pos = [] ∨
      (tokenAt ts pos).kind ≠ .finish ∧
        ahead ts pos = tokenAt ts pos :: ahead ts (pos + 1) := by
  rw [tokenAt, ahead, ahead]
  rcases Nat.lt_or_ge pos ts.length with hlt | hge
  · rw [List.getElem?_eq_getElem hlt, Option.getD_some, List.drop_eq_getElem_cons hlt,
      List.takeWhile_cons]
    by_cases hf : ts[pos].kind = .finish
    · simp [hf]
    · simp [hf]
  · rw [List.getElem?_eq_none hge, List.drop_eq_nil_of_le hge]
    exact .inl ⟨rfl, rfl⟩

theorem ahead_of_finish {pos : Nat} (h : (tokenAt ts pos).kind = .finish) : ahead ts pos = [] := by
  rcases ahead_cases ts pos with ⟨-, hnil⟩ | ⟨hne, -⟩
  · exact hnil
  · exact absurd h hne

theorem ahead_of_ne_finish {pos : Nat} (h : (tokenAt ts pos).kind ≠ .finish) :
    ahead ts pos = tokenAt ts pos :: ahead ts (pos + 1) := by
  rcases ahead_cases ts pos with ⟨hf, -⟩ | ⟨-, hcons⟩
  · exact absurd hf h
  · exact hcons

/-- What a step does, by the tokens that are ahead. -/
inductive Moves (c : Conventions) (source : Option Text) (ts : List Token) : State → State → Prop
  | finish {pos : Nat} {items : List Item} (hr : ahead ts pos = []) :
      Moves c source ts (.between pos items) (.ended (.ok ⟨items, source⟩))
  | begin {pos : Nat} {items : List Item} {t : Token}
      (hr : ahead ts pos = t :: ahead ts (pos + 1)) :
      Moves c source ts (.between pos items) (.params pos items { line := t.line })
  | param {pos : Nat} {items : List Item} {item : Item} {t : Token} {params : Bindings Text}
      (hr : ahead ts pos = t :: ahead ts (pos + 1)) (hm : t.kind = .marker)
      (hadd : Item.addParam c source item.params t = .ok params) :
      Moves c source ts (.params pos items item) (.params (pos + 1) items { item with params })
  | refuse {pos : Nat} {items : List Item} {item : Item} {t : Token} {e : ParseError}
      (hr : ahead ts pos = t :: ahead ts (pos + 1)) (hm : t.kind = .marker)
      (hadd : Item.addParam c source item.params t = .error e) :
      Moves c source ts (.params pos items item) (.ended (.error e))
  | toBody {pos : Nat} {items : List Item} {item : Item}
      (hr : ∀ t ∈ (ahead ts pos).head?, t.kind ≠ .marker) :
      Moves c source ts (.params pos items item) (.body pos items item)
  | entry {pos : Nat} {items : List Item} {item : Item} {t : Token}
      (hr : ahead ts pos = t :: ahead ts (pos + 1)) (hm : t.kind ≠ .marker) :
      Moves c source ts (.body pos items item)
        (.body (pos + 1) items { item with body := item.body ++ [Item.entryOfToken t] })
  | close {pos : Nat} {items : List Item} {item : Item}
      (hr : ∀ t ∈ (ahead ts pos).head?, t.kind = .marker) :
      Moves c source ts (.body pos items item) (.between pos (items ++ [item]))

/-- A reader that has not ended makes one of the moves. -/
theorem moves_step {s : State} (hs : ∀ result, s ≠ .ended result) :
    Moves c source ts s (step c source ts s) := by
  cases s with
  | between pos items =>
    rw [step]
    cases hk : (tokenAt ts pos).kind with
    | finish => exact .finish (ahead_of_finish hk)
    | marker | skip | text => exact .begin (ahead_of_ne_finish (by rw [hk]; decide))
  | params pos items item =>
    rw [step]
    cases hk : (tokenAt ts pos).kind with
    | marker =>
      have hr : ahead ts pos = _ := ahead_of_ne_finish (by rw [hk]; decide)
      cases hadd : Item.addParam c source item.params (tokenAt ts pos) with
      | error e => exact .refuse hr hk hadd
      | ok params => exact .param hr hk hadd
    | finish => exact .toBody (by rw [ahead_of_finish hk]; simp)
    | skip | text =>
      refine .toBody ?_
      rw [ahead_of_ne_finish (by rw [hk]; decide)]
      simp [hk]
  | body pos items item =>
    rw [step]
    cases hk : (tokenAt ts pos).kind with
    | skip | text =>
      exact .entry (ahead_of_ne_finish (by rw [hk]; decide)) (by rw [hk]; decide)
    | finish => exact .close (by rw [ahead_of_finish hk]; simp)
    | marker =>
      refine .close ?_
      rw [ahead_of_ne_finish (by rw [hk]; decide)]
      simp [hk]
  | ended result => exact absurd rfl (hs result)

/-! ## What a state comes to -/

/-- What a beginning of an item comes to, with the tokens `r` ahead. -/
def finishItems (c : Conventions) (source : Option Text) (r : List Token) (items : List Item) :
    Except ParseError Document :=
  ((r.splitBy sameItem).mapM (Item.ofTokens c source)).map fun new => ⟨items ++ new, source⟩

/-- What a body comes to, with the tokens `r` ahead. -/
def finishBody (c : Conventions) (source : Option Text) (r : List Token) (items : List Item)
    (item : Item) : Except ParseError Document :=
  finishItems c source (r.dropWhile (·.kind != .marker)) (items ++
    [{ item with body := item.body ++ (r.takeWhile (·.kind != .marker)).map Item.entryOfToken }])

/-- What parameters come to, with the tokens `r` ahead. -/
def finishParams (c : Conventions) (source : Option Text) (r : List Token) (items : List Item)
    (item : Item) : Except ParseError Document := do
  let params ← (r.takeWhile (·.kind == .marker)).foldlM (Item.addParam c source) item.params
  finishBody c source (r.dropWhile (·.kind == .marker)) items { item with params }

/-- What a state comes to. -/
def outcome (c : Conventions) (source : Option Text) (ts : List Token) :
    State → Except ParseError Document
  | .between pos items => finishItems c source (ahead ts pos) items
  | .params pos items item => finishParams c source (ahead ts pos) items item
  | .body pos items item => finishBody c source (ahead ts pos) items item
  | .ended result => result

/-- An item ends where the next one begins, with a parameter token behind another one. -/
theorem splitBy_append_of_next {ms r : List Token} (hms : ∀ t ∈ ms, t.kind = .marker)
    (hts : ∀ t ∈ ts, t.kind ≠ .marker) (hne : ms ++ ts ≠ [])
    (hnext : ∀ u ∈ r.head?, u.kind = .marker ∧ ts ≠ []) :
    (ms ++ ts ++ r).splitBy sameItem = (ms ++ ts) :: r.splitBy sameItem := by
  rw [List.splitBy_append, List.splitBy_of_isChain hne (isChain_sameItem_append hms hts),
    List.singleton_append]
  intro t ht u hu
  obtain ⟨hu, hne⟩ := hnext u hu
  rw [List.getLast?_append_of_ne_nil _ hne] at ht
  rw [sameItem, hu, beq_eq_false_iff_ne.2 (hts t (List.mem_of_getLast? ht))]
  rfl

/-- The tokens of the first item are the parameter tokens ahead and the others up to the next
parameter token. -/
theorem finishItems_cons (t : Token) (r : List Token) (items : List Item) :
    finishItems c source (t :: r) items =
      finishParams c source (t :: r) items { line := t.line } := by
  have hms : ∀ u ∈ (t :: r).takeWhile (·.kind == .marker), u.kind = .marker :=
    fun u hu => beq_iff_eq.1 (List.mem_takeWhile_imp (p := fun v : Token => v.kind == .marker) hu)
  have hr := List.takeWhile_append_dropWhile (p := fun v : Token => v.kind == .marker) (l := t :: r)
  have hhead := List.head?_dropWhile_not (fun v : Token => v.kind == .marker) (t :: r)
  rw [finishParams]
  generalize (t :: r).takeWhile (·.kind == .marker) = ms at hms hr
  generalize (t :: r).dropWhile (·.kind == .marker) = b at hr hhead
  have hts : ∀ u ∈ b.takeWhile (·.kind != .marker), u.kind ≠ .marker :=
    fun u hu => bne_iff_ne.1 (List.mem_takeWhile_imp (p := fun v : Token => v.kind != .marker) hu)
  have hb := List.takeWhile_append_dropWhile (p := fun v : Token => v.kind != .marker) (l := b)
  have hnext := List.head?_dropWhile_not (fun v : Token => v.kind != .marker) b
  simp only [finishBody]
  generalize b.takeWhile (·.kind != .marker) = bs at hts hb
  generalize b.dropWhile (·.kind != .marker) = r' at hb hnext
  subst hb
  have hnext' : ∀ u ∈ r'.head?, u.kind = .marker ∧ bs ≠ [] := by
    intro u hu
    rw [Option.mem_def.1 hu] at hnext
    refine ⟨bne_eq_false_iff_eq.1 hnext, ?_⟩
    rintro rfl
    rw [List.nil_append, Option.mem_def.1 hu] at hhead
    exact beq_eq_false_iff_ne.1 hhead (bne_eq_false_iff_eq.1 hnext)
  rw [← List.append_assoc] at hr
  have hne : ms ++ bs ≠ [] := by
    intro hnil
    rw [hnil, List.nil_append] at hr
    exact (hnext' t (by rw [hr]; rfl)).2 (List.append_eq_nil_iff.1 hnil).2
  have hline : ((ms ++ bs).head?.map Token.line).getD 0 = t.line := by
    rw [← List.head?_append_of_ne_nil _ hne, hr]
    rfl
  rw [finishItems, ← hr, splitBy_append_of_next hms hts hne hnext', List.mapM_cons,
    Item.ofTokens_append hms hts, hline]
  cases ms.foldlM (Item.addParam c source) [] with
  | error e => rfl
  | ok params =>
    simp only [Except.map, bind, Except.bind, finishItems]
    cases (r'.splitBy sameItem).mapM (Item.ofTokens c source) with
    | error e => rfl
    | ok new => simp [pure, Except.pure]

/-- A move does not change what the reader comes to. -/
theorem Moves.outcome_eq {s s' : State} (h : Moves c source ts s s') :
    outcome c source ts s' = outcome c source ts s := by
  cases h with
  | finish hr => simp [outcome, finishItems, hr, Except.map, pure, Except.pure]
  | begin hr => rw [outcome, outcome, hr, finishItems_cons]
  | param hr hm hadd =>
    simp only [outcome, finishParams, hr, List.takeWhile_cons, List.dropWhile_cons, hm,
      beq_self_eq_true, if_true, List.foldlM_cons, hadd]
    rfl
  | refuse hr hm hadd =>
    simp only [outcome, finishParams, hr, List.takeWhile_cons, hm, beq_self_eq_true, if_true,
      List.foldlM_cons, hadd]
    rfl
  | toBody hr =>
    obtain ⟨htake, hdrop⟩ := Parts.cut_of_head? (p := fun t : Token => t.kind == .marker)
      fun t ht => beq_eq_false_iff_ne.2 (hr t ht)
    simp only [outcome, finishParams, htake, hdrop, List.foldlM_nil, pure_bind]
  | entry hr hm =>
    simp only [outcome, finishBody, hr, List.takeWhile_cons, List.dropWhile_cons, bne_iff_ne.2 hm,
      if_true, List.map_cons, List.append_assoc, List.singleton_append]
  | close hr =>
    obtain ⟨htake, hdrop⟩ := Parts.cut_of_head? (p := fun t : Token => t.kind != .marker)
      fun t ht => bne_eq_false_iff_eq.2 (hr t ht)
    simp only [outcome, finishBody, htake, hdrop, List.map_nil, List.append_nil]

/-- In the end the reader has read the document that the tokens make up. -/
theorem outcome_start : outcome c source ts start = ofTokens c source ts := by
  rw [start, outcome, finishItems, ahead, List.drop_zero, ofTokens]
  cases ((ts.takeWhile (·.kind != .finish)).splitBy sameItem).mapM
    (Item.ofTokens c source) <;> rfl

/-! ## How long it takes -/

/-- One of three numbers: nothing is ahead, a parameter token, or another one. -/
def look (r : List Token) (nothing marker other : Nat) : Nat :=
  match r with
  | [] => nothing
  | t :: _ => if t.kind = .marker then marker else other

/-- How many steps a state can take at most. The reader may go once round before it takes up a
token, so that each token ahead counts four. What is added depends on whether the first of them
fits. -/
def rank (ts : List Token) : State → Nat
  | .between pos _ => 4 * (ahead ts pos).length + look (ahead ts pos) 1 1 2
  | .params pos _ _ => 4 * (ahead ts pos).length + look (ahead ts pos) 3 0 1
  | .body pos _ _ => 4 * (ahead ts pos).length + look (ahead ts pos) 2 2 0
  | .ended _ => 0

theorem look_marker {t : Token} (hm : t.kind = .marker) (r : List Token) (i j k : Nat) :
    look (t :: r) i j k = j := if_pos hm

theorem look_other {t : Token} (hm : t.kind ≠ .marker) (r : List Token) (i j k : Nat) :
    look (t :: r) i j k = k := if_neg hm

theorem look_le (r : List Token) (i j k : Nat) : look r i j k ≤ max i (max j k) := by
  cases r with
  | nil => exact Nat.le_max_left i _
  | cons t r =>
    simp only [look]
    split <;> omega

/-- A move takes away from the number of steps that are left. -/
theorem Moves.rank_lt {s s' : State} (h : Moves c source ts s s') : rank ts s' < rank ts s := by
  cases h with
  | finish hr => simp [rank, hr, look]
  | begin hr =>
    simp only [rank, hr, look]
    split <;> omega
  | @param pos _ _ _ _ hr hm hadd =>
    have hle := look_le (ahead ts (pos + 1)) 3 0 1
    simp only [rank, hr, List.length_cons, look_marker hm]
    omega
  | refuse hr hm hadd =>
    simp only [rank, hr, List.length_cons]
    omega
  | @toBody pos _ _ hr =>
    cases hahead : ahead ts pos with
    | nil => simp [rank, hahead, look]
    | cons t r =>
      have hm := hr t (by rw [hahead]; rfl)
      simp [rank, hahead, look_other hm]
  | @entry pos _ _ _ hr hm =>
    have hle := look_le (ahead ts (pos + 1)) 2 2 0
    simp only [rank, hr, List.length_cons, look_other hm]
    omega
  | @close pos _ _ hr =>
    cases hahead : ahead ts pos with
    | nil => simp [rank, hahead, look]
    | cons t r =>
      have hm := hr t (by rw [hahead]; rfl)
      simp [rank, hahead, look_marker hm]

/-- A reader ends with what its state comes to. -/
theorem exists_iterate_eq_ended (c : Conventions) (source : Option Text) (ts : List Token)
    (s : State) :
    ∃ n ≤ rank ts s, (step c source ts)^[n] s = .ended (outcome c source ts s) := by
  induction hn : rank ts s using Nat.strong_induction_on generalizing s with
  | _ n ih =>
    by_cases hs : ∃ result, s = .ended result
    · obtain ⟨result, rfl⟩ := hs
      exact ⟨0, Nat.zero_le _, rfl⟩
    · have hmove : Moves c source ts s _ := moves_step (not_exists.1 hs)
      obtain ⟨k, hk, hend⟩ := ih _ (hn ▸ hmove.rank_lt) _ rfl
      have hlt := hmove.rank_lt
      refine ⟨k + 1, by omega, ?_⟩
      rw [Function.iterate_succ_apply, hend, hmove.outcome_eq]

end Cursor

/-- Reading ends, for every list of tokens, with the document or the error that the tokens before
the first end make up, and after a number of steps that is linear in how many they are. A document
uses up each of these tokens. -/
theorem endsWithin_ofTokens (c : Conventions) (source : Option Text) (ts : List Token) :
    EndsWithin c source ts (4 * (ts.takeWhile (·.kind != .finish)).length + 2)
        (ofTokens c source ts) ∧
      ofTokens c source ts = ofTokens c source (ts.takeWhile (·.kind != .finish)) ∧
      ∀ d, ofTokens c source ts = .ok d →
        d.source = source ∧ d.UsesUp c (ts.takeWhile (·.kind != .finish)) := by
  refine ⟨?_, ?_, fun d h => ⟨source_of_ofTokens h, usesUp_of_ofTokens h⟩⟩
  · obtain ⟨n, hn, hend⟩ := Cursor.exists_iterate_eq_ended c source ts Cursor.start
    have hle := Cursor.look_le (ts.takeWhile (·.kind != .finish)) 1 1 2
    refine ⟨n, hn.trans (Nat.add_le_add_left hle _), ?_⟩
    rw [hend, Cursor.outcome_start]
  · have hcut : (ts.takeWhile (·.kind != .finish)).takeWhile (·.kind != .finish) =
        ts.takeWhile (·.kind != .finish) :=
      List.takeWhile_eq_self_iff.2 fun t => List.mem_takeWhile_imp
    rw [ofTokens, ofTokens, hcut]

/-- What stands behind an end is not read, and numbers are handed on as they are. -/
example : ofTokens {} none [⟨.text, "## k", 7⟩, ⟨.skip, "x", -3⟩, ⟨.finish, [], 0⟩,
    ⟨.marker, "##", 4⟩] = .ok ⟨[⟨[], [.literal "## k" 7, .skip (-3)], 7⟩], none⟩ := by
  decide

end Document

end LineSpec
