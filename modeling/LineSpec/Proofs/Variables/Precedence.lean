import LineSpec.Proofs.Steps
import LineSpec.Proofs.Text.Cutting
import LineSpec.Variables
import Mathlib.Data.List.Induction
/-!
# Which source goes first

A name may have a value in the settings, in the file of variables and in several assignments. The
last assignment goes first, then the file, then the settings (`collect_precedence`). An assignment
needs an equals sign and a name before the first one. The first one that lacks them is refused, and
then there are no variables at all, whatever the assignments behind it are.

Assignments are bound one after the other, so what holds for all of them is shown by adding one at
the end (`lastAssigns_concat_iff`, `ofAssignments_concat`).
-/

namespace LineSpec.Variables

variable {w : Workspace} {texts : List Text} {text name value : Text} {vars : Bindings Text}

/-! ## Assignments -/

/-- `Assigns text name value`: the text before the first equals sign of `text` is the name, once it
is trimmed, and not empty then; the value is all that follows the sign, as it is. -/
def Assigns (text name value : Text) : Prop :=
  ∃ key, text = key ++ CodePoint.ofChar '=' :: value ∧ CodePoint.ofChar '=' ∉ key ∧
    Text.trim key = name ∧ name ≠ []

/-- A text with an equals sign, and more than white space before the first one. -/
def IsAssignment (text : Text) : Prop := ∃ name value, Assigns text name value

theorem ofAssignment_eq_ok_iff :
    ofAssignment text = .ok (name, value) ↔ Assigns text name value := by
  rw [ofAssignment]
  constructor
  · intro h
    split at h
    · cases h
    next key value' hcut =>
      obtain ⟨htext, hfirst⟩ := Text.splitAt?_eq_some_iff.1 hcut
      simp only at h
      split at h
      · cases h
      next hne =>
        obtain ⟨hname, rfl⟩ := Prod.mk.inj (Except.ok.inj h)
        exact ⟨key, htext, hfirst, hname, hname ▸ hne⟩
  · rintro ⟨key, htext, hfirst, rfl, hne⟩
    rw [Text.splitAt?_eq_some_iff.2 ⟨htext, hfirst⟩]
    exact if_neg hne

/-- An assignment is refused in its own words. -/
theorem eq_badAssignment_of_ofAssignment {e : SourceError} (h : ofAssignment text = .error e) :
    e = .badAssignment text := by
  rw [ofAssignment] at h
  split at h
  · exact (Except.error.inj h).symm
  · simp only at h
    split at h
    · exact (Except.error.inj h).symm
    · cases h

theorem isAssignment_iff : IsAssignment text ↔ ∃ p, ofAssignment text = .ok p := by
  simp only [Prod.exists, ofAssignment_eq_ok_iff]
  rfl

instance (text : Text) : Decidable (IsAssignment text) :=
  match h : ofAssignment text with
  | .ok p => isTrue (isAssignment_iff.2 ⟨p, h⟩)
  | .error _ => isFalse fun hgood => by
    obtain ⟨_, hp⟩ := isAssignment_iff.1 hgood
    cases h.symm.trans hp

theorem Assigns.unique {name' value' : Text} (h : Assigns text name value)
    (h' : Assigns text name' value') : name = name' ∧ value = value' := by
  rw [← ofAssignment_eq_ok_iff] at h h'
  exact Prod.mk.inj (Except.ok.inj (h.symm.trans h'))

/-- The last of the texts that assign a value to the name assigns it this value. -/
def LastAssigns (texts : List Text) (name value : Text) : Prop :=
  ∃ before text after, texts = before ++ text :: after ∧ Assigns text name value ∧
    ∀ t ∈ after, ∀ v, ¬Assigns t name v

/-- What one more text changes. -/
theorem lastAssigns_concat_iff :
    LastAssigns (texts ++ [text]) name value ↔
      Assigns text name value ∨ (∀ v, ¬Assigns text name v) ∧ LastAssigns texts name value := by
  constructor
  · rintro ⟨before, t, after, htexts, hassigns, hlast⟩
    rcases List.eq_nil_or_concat after with rfl | ⟨after', t', rfl⟩
    · obtain ⟨-, htext⟩ := List.append_inj' htexts rfl
      obtain rfl := List.singleton_inj.1 htext
      exact .inl hassigns
    · rw [List.concat_eq_append, ← List.cons_append, ← List.append_assoc] at htexts
      obtain ⟨rfl, htext⟩ := List.append_inj' htexts rfl
      obtain rfl := List.singleton_inj.1 htext
      rw [List.concat_eq_append, List.forall_mem_append] at hlast
      exact .inr ⟨hlast.2 _ List.mem_cons_self, before, t, after', rfl, hassigns, hlast.1⟩
  · rintro (hassigns | ⟨hnone, before, t, after, rfl, hassigns, hlast⟩)
    · exact ⟨texts, text, [], rfl, hassigns, List.forall_mem_nil _⟩
    · refine ⟨before, t, after ++ [text], by simp, hassigns, ?_⟩
      exact List.forall_mem_append.2 ⟨hlast, List.forall_mem_singleton.2 hnone⟩

/-- What one more text adds to the variables that the texts before it give. -/
theorem ofAssignments_concat :
    ofAssignments (texts ++ [text]) = .ok vars ↔
      ∃ vars' name value, ofAssignments texts = .ok vars' ∧ Assigns text name value ∧
        vars = vars'.bind name value := by
  have hbind : ∀ (ps : List (Text × Text)) (p : Text × Text),
      Assoc.bindAll [] (ps ++ [p]) = (Assoc.bindAll [] ps).bind p.1 p.2 :=
    fun ps p => List.foldl_concat ..
  simp only [ofAssignments, List.mapM_append, List.mapM_cons, List.mapM_nil, bind_eq_ok_iff]
  constructor
  · rintro ⟨_, ⟨ps, hps, _, ⟨⟨name, value⟩, hp, _, hnil, hone⟩, hall⟩, hvars⟩
    obtain rfl := Except.ok.inj hnil
    obtain rfl := Except.ok.inj hone
    obtain rfl := Except.ok.inj hall
    refine ⟨_, name, value, ⟨ps, hps, rfl⟩, ofAssignment_eq_ok_iff.1 hp, ?_⟩
    rw [← Except.ok.inj hvars, hbind]
  · rintro ⟨_, name, value, ⟨ps, hps, hvars'⟩, hassigns, rfl⟩
    obtain rfl := Except.ok.inj hvars'
    exact ⟨_, ⟨ps, hps, _, ⟨_, ofAssignment_eq_ok_iff.2 hassigns, _, rfl, rfl⟩, rfl⟩,
      congrArg _ (hbind ps _)⟩

/-- Assignments bind the names that they have, each to the value of its last one. -/
theorem get?_ofAssignments (h : ofAssignments texts = .ok vars) :
    vars.get? name = some value ↔ LastAssigns texts name value := by
  induction texts using List.reverseRecOn generalizing vars with
  | nil =>
    obtain rfl := Except.ok.inj h
    refine iff_of_false nofun ?_
    rintro ⟨before, text, after, htexts, -⟩
    exact List.append_ne_nil_of_right_ne_nil before (List.cons_ne_nil text after) htexts.symm
  | append_singleton texts text ih =>
    obtain ⟨vars', key, last, hvars', hassigns, rfl⟩ := ofAssignments_concat.1 h
    rw [Assoc.get?_bind, lastAssigns_concat_iff, ← ih hvars']
    split
    next hkey =>
      subst hkey
      constructor
      · intro hlast
        obtain rfl := Option.some.inj hlast
        exact .inl hassigns
      · rintro (hassigns' | ⟨hnone, -⟩)
        · rw [(hassigns.unique hassigns').2]
        · exact absurd hassigns (hnone last)
    next hkey =>
      have hnone : ∀ v, ¬Assigns text name v := fun v hv => hkey (hassigns.unique hv).1
      rw [and_iff_right hnone, or_iff_right (hnone value)]

theorem mem_names_ofAssignments (h : ofAssignments texts = .ok vars) :
    name ∈ vars.names ↔ ∃ text ∈ texts, ∃ value, Assigns text name value := by
  induction texts using List.reverseRecOn generalizing vars with
  | nil =>
    obtain rfl := Except.ok.inj h
    simp [Assoc.bindAll, Assoc.names]
  | append_singleton texts text ih =>
    obtain ⟨vars', key, last, hvars', hassigns, rfl⟩ := ofAssignments_concat.1 h
    have hkey : (∃ value, Assigns text name value) ↔ key = name := by
      constructor
      · rintro ⟨_, hvalue⟩
        exact (hassigns.unique hvalue).1
      · rintro rfl
        exact ⟨last, hassigns⟩
    have hconcat : (∃ t ∈ texts ++ [text], ∃ value, Assigns t name value) ↔
        name ∈ vars'.names ∨ key = name := by
      rw [ih hvars', ← hkey]
      simp only [List.mem_append, List.mem_singleton, or_and_right, exists_or, exists_eq_left]
    rw [hconcat, ← Assoc.isSome_get?_iff, ← Assoc.isSome_get?_iff, Assoc.get?_bind]
    split
    next heq => simp [heq]
    next hne => simp [hne]

theorem nodup_names_ofAssignments (h : ofAssignments texts = .ok vars) : vars.names.Nodup := by
  obtain ⟨ps, -, hvars⟩ := bind_eq_ok_iff.1 h
  obtain rfl := Except.ok.inj hvars
  exact Assoc.nodup_names_bindAll Assoc.nodup_names_nil ps

/-- Assignments give variables when each of them is one. -/
theorem exists_ofAssignments (h : ∀ text ∈ texts, IsAssignment text) :
    ∃ vars, ofAssignments texts = .ok vars := by
  obtain ⟨ps, hps⟩ := exists_mapM_eq_ok_iff.2 fun text hmem => isAssignment_iff.1 (h text hmem)
  exact ⟨_, bind_eq_ok_iff.2 ⟨ps, hps, rfl⟩⟩

/-- Where a text is no assignment, the first one that is none is refused. -/
theorem ofAssignments_eq_error (h : ¬∀ text ∈ texts, IsAssignment text) :
    ∃ before text after, texts = before ++ text :: after ∧ (∀ t ∈ before, IsAssignment t) ∧
      ¬IsAssignment text ∧ ofAssignments texts = .error (.badAssignment text) := by
  simp only [isAssignment_iff] at h ⊢
  cases hresult : texts.mapM ofAssignment with
  | ok ps => exact absurd (exists_mapM_eq_ok_iff.1 ⟨ps, hresult⟩) h
  | error e =>
    obtain ⟨before, text, after, htexts, hbefore, herror⟩ := mapM_eq_error_iff.1 hresult
    obtain rfl := eq_badAssignment_of_ofAssignment herror
    refine ⟨before, text, after, htexts, hbefore, ?_, bind_eq_error_iff.2 (.inl hresult)⟩
    rintro ⟨p, hp⟩
    cases herror.symm.trans hp

/-! ## Files -/

/-- The variables in a file; where there is none, there are no variables. -/
def loadAny (w : Workspace) : Option Path → Except SourceError (Bindings Text)
  | none => .ok []
  | some file => load w file

theorem nodup_names_ofMembers {d : Yaml.Data} {members : List (Yaml.Leaf × Yaml.Datum)}
    (h : ofMembers d members = .ok vars) : vars.names.Nodup := by
  refine foldlM_keeps (P := fun b : Bindings Text => b.names.Nodup) ?_ Assoc.nodup_names_nil h
  intro b p b' hb hb'
  obtain ⟨name, -, hb'⟩ := bind_eq_ok_iff.1 hb'
  obtain ⟨value, -, hb'⟩ := bind_eq_ok_iff.1 hb'
  obtain rfl := Except.ok.inj hb'
  exact Assoc.nodup_names_bind hb name value

/-- A file gives a name at most one value. -/
theorem nodup_names_load {file : Path} (h : load w file = .ok vars) : vars.names.Nodup := by
  rw [load] at h
  split at h
  · cases h
  · cases h
  · rw [ofChars] at h
    split at h
    · cases h
    · obtain rfl := Except.ok.inj h
      exact Assoc.nodup_names_nil
    · split at h
      · obtain rfl := Except.ok.inj h
        exact Assoc.nodup_names_nil
      · cases h
      · split at h
        · exact nodup_names_ofMembers (mapError_eq_ok_iff.1 h)
        · cases h

theorem nodup_names_loadAny {file : Option Path} (h : loadAny w file = .ok vars) :
    vars.names.Nodup := by
  cases file with
  | none =>
    obtain rfl := Except.ok.inj h
    exact Assoc.nodup_names_nil
  | some file => exact nodup_names_load h

/-! ## All sources -/

theorem collect_eq (settings : Bindings Text) (file : Option Path) (assignments : List Text) :
    collect w settings file assignments = (do
      let fromFile ← loadAny w file
      let assigned ← ofAssignments assignments
      .ok ((settings.bindAll fromFile).bindAll assigned)) := by
  cases file <;> rfl

/-- Where the file can be loaded and each assignment is one, the variables have exactly the names of
all three sources. The value of a name is that of the last assignment of this name; if there is
none, the value in the file; if there is none either, the value in the settings. Otherwise the first
text that is no assignment is refused, and named, and there are no variables. -/
theorem collect_precedence {file : Option Path} {fromFile : Bindings Text}
    (hfile : loadAny w file = .ok fromFile) (settings : Bindings Text) (assignments : List Text) :
    ((∀ t ∈ assignments, IsAssignment t) →
      ∃ vars, collect w settings file assignments = .ok vars ∧
        (settings.names.Nodup → vars.names.Nodup) ∧
        (∀ n, n ∈ vars.names ↔ n ∈ settings.names ∨ n ∈ fromFile.names ∨
          ∃ t ∈ assignments, ∃ v, Assigns t n v) ∧
        ∀ n v, vars.get? n = some v ↔ LastAssigns assignments n v ∨
          (∀ t ∈ assignments, ∀ u, ¬Assigns t n u) ∧
            (fromFile.get? n = some v ∨ n ∉ fromFile.names ∧ settings.get? n = some v)) ∧
    ((¬∀ t ∈ assignments, IsAssignment t) →
      ∃ before t after, assignments = before ++ t :: after ∧ (∀ t' ∈ before, IsAssignment t') ∧
        ¬IsAssignment t ∧ collect w settings file assignments = .error (.badAssignment t) ∧
        (SourceError.badAssignment t).message? =
          some ("Expected KEY=VALUE, got " ++ Text.quoted t)) := by
  have hdistinct := nodup_names_loadAny hfile
  rw [collect_eq, hfile]
  constructor
  · intro hgood
    obtain ⟨assigned, hassigned⟩ := exists_ofAssignments hgood
    have hdistinct' := nodup_names_ofAssignments hassigned
    rw [hassigned]
    refine ⟨(settings.bindAll fromFile).bindAll assigned, rfl, fun h => ?_, fun n => ?_,
      fun n v => ?_⟩
    · exact Assoc.nodup_names_bindAll (Assoc.nodup_names_bindAll h fromFile) assigned
    · rw [Assoc.mem_names_bindAll hdistinct', Assoc.mem_names_bindAll hdistinct,
        mem_names_ofAssignments hassigned, or_assoc]
    · -- the three sources are looked up one after the other
      have hnone : assigned.get? n = none ↔ ∀ t ∈ assignments, ∀ u, ¬Assigns t n u := by
        rw [← Option.not_isSome_iff_eq_none, Assoc.isSome_get?_iff,
          mem_names_ofAssignments hassigned]
        simp only [not_exists, not_and]
      rw [Assoc.get?_bindAll _ hdistinct', Assoc.get?_bindAll _ hdistinct, Option.or_eq_some_iff,
        Option.or_eq_some_iff, get?_ofAssignments hassigned, hnone, ← Assoc.isSome_get?_iff,
        Option.not_isSome_iff_eq_none]
  · intro hbad
    obtain ⟨before, t, after, hassignments, hbefore, hnot, herror⟩ := ofAssignments_eq_error hbad
    rw [herror]
    exact ⟨before, t, after, hassignments, hbefore, hnot, rfl, rfl⟩

/-- A file of variables. -/
def holdingVariables : Workspace where
  tree.entries := [(["v.yml"], .file (Text.Utf8.encode "b: 3\nc: 4\n".toList))]

theorem collect_precedence_three_sources :
    loadAny holdingVariables (some ⟨.relative, ["v.yml"]⟩) = .ok [("b", "3"), ("c", "4")] ∧
    (∃ vars, collect holdingVariables [("a", "1"), ("b", "2"), ("c", "2")]
        (some ⟨.relative, ["v.yml"]⟩) ["c=x", "d=", " c\t= y=z "] = .ok vars ∧
      vars.get? "a" = some ("1" : Text) ∧ vars.get? "b" = some ("3" : Text) ∧
      vars.get? "c" = some (" y=z " : Text) ∧ ("d" : Text) ∈ vars.names) ∧
    collect holdingVariables [] (some ⟨.relative, ["v.yml"]⟩) ["c=x", " =y", "d"] =
      .error (.badAssignment " =y") := by
  have hfile : loadAny holdingVariables (some ⟨.relative, ["v.yml"]⟩) =
      .ok [("b", "3"), ("c", "4")] := by decide +kernel
  refine ⟨hfile, ?_, ?_⟩
  · obtain ⟨vars, hvars, -, hnames, hvalues⟩ := (collect_precedence hfile
      [("a", "1"), ("b", "2"), ("c", "2")] ["c=x", "d=", " c\t= y=z "]).1 (by decide +kernel)
    have hassigned : ofAssignments ["c=x", "d=", " c\t= y=z "] =
        .ok [("c", " y=z "), ("d", "")] := by decide +kernel
    have hothers : ∀ n ∉ Assoc.names [(("c" : Text), (" y=z " : Text)), ("d", "")],
        ∀ t ∈ [("c=x" : Text), "d=", " c\t= y=z "], ∀ u, ¬Assigns t n u :=
      fun n hn t ht u hu => hn ((mem_names_ofAssignments hassigned).2 ⟨t, ht, u, hu⟩)
    refine ⟨vars, hvars, ?_, ?_, ?_, ?_⟩
    · exact (hvalues _ _).2 (.inr ⟨hothers "a" (by decide), .inr (by decide)⟩)
    · exact (hvalues _ _).2 (.inr ⟨hothers "b" (by decide), .inl (by decide)⟩)
    · refine (hvalues _ _).2 (.inl ⟨["c=x", "d="], " c\t= y=z ", [], rfl, ?_, List.forall_mem_nil _⟩)
      exact ofAssignment_eq_ok_iff.1 (by decide +kernel)
    · exact (hnames _).2 (.inr (.inr ⟨"d=", by decide, [],
        ofAssignment_eq_ok_iff.1 (by decide +kernel)⟩))
  · obtain ⟨before, t, after, hcut, hbefore, hbad, herror, -⟩ := (collect_precedence hfile
      [] ["c=x", " =y", "d"]).2 (by decide +kernel)
    obtain - | ⟨_, - | ⟨_, before⟩⟩ := before
    · obtain ⟨rfl, -⟩ := List.cons.inj hcut
      exact absurd hbad (by decide +kernel)
    · obtain ⟨rfl, -⟩ := List.cons.inj (List.cons.inj hcut).2
      exact herror
    · obtain ⟨rfl, -⟩ := List.cons.inj (List.cons.inj hcut).2
      exact absurd (hbefore " =y" (by simp)) (by decide +kernel)

end LineSpec.Variables
