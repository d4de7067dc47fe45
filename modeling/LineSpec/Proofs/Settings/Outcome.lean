import LineSpec.Proofs.Settings.RoundTrip
import LineSpec.Variables
/-!
# What loading gives

Loading settings goes well if it gives settings of the right types or says that the file is no JSON,
and loading variables if it gives variables or says that the file is no YAML or no mapping. Neither
always goes well. Which files it goes well for is decided by their octets alone: they are a text,
and the text is sound, that is, no JSON or an object whose members have the types of the settings,
and no YAML or data without a fault of its own (`loadsWell_iff`).
-/

namespace LineSpec

/-! ## Settings -/

namespace Settings

/-- The names of the settings that are texts. -/
def textNames : List Text :=
  ["version", "spec_dir", "extension", "root", Marker.skip.label, Marker.item.label,
    Marker.opening.label, Marker.closing.label]

/-- Each member that is a setting has the type of this setting. -/
structure Suits (members : Bindings Json) : Prop where
  texts : ∀ name ∈ textNames, ∀ j, Assoc.get? members name = some j → ∃ t, j = .text t
  strictEnd : ∀ j, Assoc.get? members "strict_eof" = some j → ∃ b, j = .bool b
  vars : ∀ j, Assoc.get? members "variables" = some j → ∃ vars, j = .object vars

theorem eq_of_getD_eq {α : Type} {o : Option α} {default x y : α} (h : o.getD default = x)
    (hy : o = some y) : y = x := by
  rw [← h, hy]
  rfl

theorem exists_variablesOf?_iff {j : Json} :
    (∃ vars, variablesOf? j = some vars) ↔ ∃ members, j = .object members := by
  cases j with
  | object members => exact ⟨fun _ => ⟨_, rfl⟩, fun _ => ⟨_, rfl⟩⟩
  | _ => exact iff_of_false (by rintro ⟨_, h⟩; cases h) (by rintro ⟨_, h⟩; cases h)

theorem suits_of_ofJson? {j : Json} {s : Typed} (h : ofJson? j = some s.toSettings) :
    ∃ members, j = .object members ∧ Suits members := by
  cases j with
  | object members =>
    rw [ofJson?] at h
    obtain ⟨vars, hvars, heq⟩ := Option.map_eq_some_iff.1 h
    obtain ⟨hversion, hspecDir, hextension, hroot, hskip, hitem, hopening, hclosing, hstrictEnd,
      -⟩ := Settings.mk.inj heq
    refine ⟨members, rfl, ?_, fun j hj => ⟨_, eq_of_getD_eq hstrictEnd hj⟩, fun j hj => ?_⟩
    · simp only [textNames, List.forall_mem_cons]
      exact ⟨fun j hj => ⟨_, eq_of_getD_eq hversion hj⟩,
        fun j hj => ⟨_, eq_of_getD_eq hspecDir hj⟩,
        fun j hj => ⟨_, eq_of_getD_eq hextension hj⟩, fun j hj => ⟨_, eq_of_getD_eq hroot hj⟩,
        fun j hj => ⟨_, eq_of_getD_eq hskip hj⟩, fun j hj => ⟨_, eq_of_getD_eq hitem hj⟩,
        fun j hj => ⟨_, eq_of_getD_eq hopening hj⟩, fun j hj => ⟨_, eq_of_getD_eq hclosing hj⟩,
        List.forall_mem_nil _⟩
    · have hvariables : variablesOf? ((Assoc.get? members "variables").getD (.object [])) =
          some vars := hvars
      rw [hj] at hvariables
      exact exists_variablesOf?_iff.1 ⟨vars, hvariables⟩
  | _ => cases h

section
variable {members : Bindings Json} (h : Suits members)
include h

theorem Suits.exists_text (name default : String) (hname : (name : Text) ∈ textNames) :
    ∃ t, (Assoc.get? members name).getD (.text default) = .text t := by
  cases hj : Assoc.get? members name with
  | none => exact ⟨default, rfl⟩
  | some j => exact h.texts name hname j hj

theorem Suits.exists_strictEnd :
    ∃ b, (Assoc.get? members "strict_eof").getD (.bool false) = .bool b := by
  cases hj : Assoc.get? members "strict_eof" with
  | none => exact ⟨false, rfl⟩
  | some j => exact h.strictEnd j hj

theorem Suits.exists_vars :
    ∃ vars, variablesOf? ((Assoc.get? members "variables").getD (.object [])) = some vars := by
  rw [exists_variablesOf?_iff]
  cases hj : Assoc.get? members "variables" with
  | none => exact ⟨[], rfl⟩
  | some j => exact h.vars j hj

/-- Members that are missing have defaults of the right types. -/
theorem Suits.exists_typed : ∃ s : Typed, ofJson? (.object members) = some s.toSettings := by
  obtain ⟨version, hversion⟩ := h.exists_text "version" "0.1.0" (by decide)
  obtain ⟨specDir, hspecDir⟩ := h.exists_text "spec_dir" "spec" (by decide)
  obtain ⟨extension, hextension⟩ := h.exists_text "extension" "txt" (by decide)
  obtain ⟨root, hroot⟩ := h.exists_text "root" "" (by decide)
  obtain ⟨skip, hskip⟩ := h.exists_text Marker.skip.label ".." (by decide)
  obtain ⟨item, hitem⟩ := h.exists_text Marker.item.label "##" (by decide)
  obtain ⟨opening, hopening⟩ := h.exists_text Marker.opening.label "$\x7b" (by decide)
  obtain ⟨closing, hclosing⟩ := h.exists_text Marker.closing.label "\x7d" (by decide)
  obtain ⟨strictEnd, hstrictEnd⟩ := h.exists_strictEnd
  obtain ⟨vars, hvars⟩ := h.exists_vars
  refine ⟨⟨version, specDir, extension, root, skip, item, opening, closing, strictEnd, vars⟩, ?_⟩
  rw [ofJson?]
  refine Option.map_eq_some_iff.2 ⟨vars, hvars, ?_⟩
  rw [Typed.toSettings, Settings.mk.injEq]
  exact ⟨hversion, hspecDir, hextension, hroot, hskip, hitem, hopening, hclosing, hstrictEnd, rfl⟩

end

/-- Data gives settings of the right types exactly if it is an object whose members have them. -/
theorem exists_typed_iff {j : Json} : (∃ s : Typed, ofJson? j = some s.toSettings) ↔
    ∃ members, j = .object members ∧ Suits members := by
  constructor
  · rintro ⟨s, h⟩
    exact suits_of_ofJson? h
  · rintro ⟨members, rfl, h⟩
    exact h.exists_typed

/-- Settings of the right types are loaded, or the file is said to be invalid. -/
def LoadsWell (file : Path) (r : Except LoadError Settings) : Prop :=
  (∃ s : Typed, r = .ok s.toSettings) ∨ ∃ e, r = .error (.invalid file e)

/-- Characters that are no JSON, or write an object whose members have the types of settings. -/
def IsSound (cs : List Char) : Prop :=
  (∃ e, Json.read cs = .error (.invalid e)) ∨
    ∃ members, Json.read cs = .ok (.object members) ∧ Suits members

theorem loadsWell_ofChars_iff {file : Path} {cs : List Char} :
    LoadsWell file (ofChars file cs) ↔ IsSound cs := by
  rw [LoadsWell, IsSound, ofChars]
  cases hread : Json.read cs with
  | error e => cases e <;> simp
  | ok j =>
    have htyped : (∃ s : Typed, ofJson? j = some s.toSettings) ↔ _ := exists_typed_iff
    cases hsettings : ofJson? j with
    | none =>
      rw [hsettings] at htyped
      simpa [hsettings] using htyped
    | some s =>
      rw [hsettings] at htyped
      simpa [hsettings] using htyped

end Settings

/-! ## Variables -/

namespace Yaml.Data

/-- The members of the mapping that data is, if it is one. -/
def members? (d : Data) : Option (List (Leaf × Datum)) :=
  match d.root with
  | .scalar _ => none
  | .collection n =>
    match d.collection? n with
    | some (.mapping members) => some members
    | _ => none

/-- A step that fails, if at all, because of a number that cannot be written. That a text lacks a
collection, or has too many inside each other, has the fault of a text that is not YAML. -/
def IsLate {α : Type} (x : Except Fault α) : Prop :=
  ∀ fault, x = .error fault → fault = .invalid ∨ fault = .unwritable

section
variable {α β : Type}

theorem IsLate.ok (a : α) : IsLate (.ok a) := nofun

theorem IsLate.invalid : IsLate (.error .invalid : Except Fault α) :=
  fun _ h => .inl (Except.error.inj h).symm

theorem IsLate.bind {x : Except Fault α} {f : α → Except Fault β} (hx : IsLate x)
    (hf : ∀ a, IsLate (f a)) : IsLate (x >>= f) := by
  intro fault h
  rcases bind_eq_error_iff.1 h with h | ⟨a, -, h⟩
  · exact hx fault h
  · exact hf a fault h

theorem IsLate.mapM {f : α → Except Fault β} (hf : ∀ a, IsLate (f a)) (l : List α) :
    IsLate (l.mapM f) := by
  intro fault h
  obtain ⟨a, -, ha⟩ := exists_of_mapM_eq_error h
  exact hf a fault ha

theorem IsLate.foldlM {f : β → α → Except Fault β} (hf : ∀ b a, IsLate (f b a)) (l : List α)
    (b : β) : IsLate (l.foldlM f b) := by
  induction l generalizing b with
  | nil => exact .ok b
  | cons a l ih =>
    rw [List.foldlM_cons]
    exact (hf b a).bind ih

end

theorem isLate_writable (s : Scalar) (t : Text) : IsLate (writable s t) := by
  rw [writable]
  split
  · exact .ok t
  · exact fun _ h => .inr (Except.error.inj h).symm

theorem isLate_nested (d : Data) (fuel : Nat) (around : List Nat) (v : Datum) :
    IsLate (d.nested fuel around v) := by
  induction fuel generalizing around v with
  | zero => exact .invalid
  | succ fuel ih =>
    cases v with
    | scalar leaf => exact isLate_writable _ _
    | collection n =>
      rw [nested]
      split
      · exact .invalid
      · split
        · exact .ok _
        · exact (IsLate.mapM (ih _) _).bind fun _ => .ok _
      · split
        · exact .ok _
        · refine (IsLate.mapM (fun p => ?_) _).bind fun _ => .ok _
          exact (isLate_writable _ _).bind fun _ => (ih _ _).bind fun _ => .ok _
      · exact (IsLate.mapM (fun _ => isLate_writable _ _) _).bind fun _ => .ok _
      · split
        · exact .ok _
        · refine (IsLate.mapM (fun p => ?_) _).bind fun _ => .ok _
          exact (ih _ _).bind fun _ => (ih _ _).bind fun _ => .ok _

theorem isLate_text (d : Data) (v : Datum) : IsLate (d.text v) := by
  cases v with
  | scalar leaf => exact isLate_writable _ _
  | collection => exact isLate_nested _ _ _ _

end Yaml.Data

namespace Variables

open Yaml (Fault)

/-- Variables are loaded, or the file is said to be no YAML or no mapping. -/
def LoadsWell (file : Path) (r : Except SourceError (Bindings Text)) : Prop :=
  (∃ vars, r = .ok vars) ∨ r = .error (.yaml file .invalid) ∨ r = .error (.noMapping file)

/-- Characters that are no YAML, or write data without a fault of its own; if it is a mapping, all
its members have texts. -/
structure IsSound (cs : List Char) : Prop where
  data : ∀ fault, Yaml.data? cs = .error fault → fault = .invalid
  members : ∀ d members, Yaml.data? cs = .ok (some d) → d.members? = some members →
    ofMembers d members ≠ .error .unwritable

theorem isLate_valueText (d : Yaml.Data) (v : Yaml.Datum) : Yaml.Data.IsLate (valueText d v) := by
  unfold valueText
  split
  · exact .ok _
  · exact d.isLate_text v

theorem isLate_ofMembers (d : Yaml.Data) (members : List (Yaml.Leaf × Yaml.Datum)) :
    Yaml.Data.IsLate (ofMembers d members) :=
  .foldlM (fun _ _ => (d.isLate_text _).bind fun _ => (isLate_valueText d _).bind fun _ => .ok _)
    members []

section
variable {file : Path} {cs : List Char} {d : Yaml.Data} {members : List (Yaml.Leaf × Yaml.Datum)}

theorem loadsWell_ofMembers_iff : LoadsWell file ((ofMembers d members).mapError (.yaml file)) ↔
    ofMembers d members ≠ .error .unwritable := by
  cases hvars : ofMembers d members with
  | ok vars => exact iff_of_true (.inl ⟨vars, rfl⟩) nofun
  | error fault =>
    rcases isLate_ofMembers d members fault hvars with rfl | rfl
    · exact iff_of_true (.inr (.inl rfl)) nofun
    · exact iff_of_false (by rintro (⟨_, h⟩ | h | h) <;> cases h) (absurd rfl)

theorem isSound_of_data (h : Yaml.data? cs = .ok (some d)) :
    IsSound cs ↔ ∀ members, d.members? = some members →
      ofMembers d members ≠ .error .unwritable := by
  constructor
  · exact fun hsound members => hsound.members d members h
  · refine fun hmembers => ⟨fun _ heq => (nomatch h.symm.trans heq), fun d' members heq => ?_⟩
    obtain rfl := Option.some.inj (Except.ok.inj (h.symm.trans heq))
    exact hmembers members

theorem isSound_of_none (h : Yaml.data? cs = .ok none) : IsSound cs := by
  refine ⟨?_, ?_⟩
  · intro fault heq
    cases h.symm.trans heq
  · intro d members heq
    cases h.symm.trans heq

theorem isSound_of_error {fault : Fault} (h : Yaml.data? cs = .error fault) :
    IsSound cs ↔ fault = .invalid := by
  constructor
  · exact fun hsound => hsound.data fault h
  · rintro rfl
    refine ⟨?_, ?_⟩
    · intro fault heq
      exact (Except.error.inj (h.symm.trans heq)).symm
    · intro d members heq
      cases h.symm.trans heq

theorem loadsWell_yaml_iff {fault : Fault} :
    LoadsWell file (.error (.yaml file fault)) ↔ fault = .invalid := by
  simp [LoadsWell]

theorem loadsWell_ofChars_iff : LoadsWell file (ofChars file cs) ↔ IsSound cs := by
  rw [ofChars]
  cases hdata : Yaml.data? cs with
  | error fault => exact loadsWell_yaml_iff.trans (isSound_of_error hdata).symm
  | ok data =>
    cases data with
    | none => exact iff_of_true (.inl ⟨[], rfl⟩) (isSound_of_none hdata)
    | some d =>
      have hother : LoadsWell file (.error (.noMapping file)) := .inr (.inr rfl)
      rw [isSound_of_data hdata, Yaml.Data.members?]
      simp only
      cases d.root with
      | scalar leaf =>
        refine iff_of_true ?_ (by simp)
        split
        · exact .inl ⟨[], rfl⟩
        · exact hother
        next heq => cases heq
      | collection n =>
        simp only
        rcases d.collection? n with _ | ⟨items | members | keys | members⟩
        · exact iff_of_true hother (by simp)
        · exact iff_of_true hother (by simp)
        · simpa using loadsWell_ofMembers_iff
        · exact iff_of_true hother (by simp)
        · exact iff_of_true hother (by simp)

end

end Variables

/-! ## Files -/

section
variable {w : Workspace} {root varsFile : Path} {content content' : List UInt8}

theorem Settings.loadsWell_iff_of_read (h : w.read (file root) = .ok content) :
    LoadsWell (file root) (load w root) ↔
      ∃ cs, Text.Utf8.decode content = .ok cs ∧ IsSound (Text.unifyNewlines cs) := by
  rw [(load_of_read h).2]
  cases Text.Utf8.decode content with
  | error fault => simp [LoadsWell]
  | ok cs => simp [loadsWell_ofChars_iff]

theorem Variables.loadsWell_iff_of_read (h : w.read varsFile = .ok content) :
    LoadsWell varsFile (load w varsFile) ↔
      ∃ cs, Text.Utf8.decode content = .ok cs ∧ IsSound (Text.unifyNewlines cs) := by
  rw [load, Settings.readChars_of_read h]
  cases Text.Utf8.decode content with
  | error fault => simp [LoadsWell]
  | ok cs => simp [loadsWell_ofChars_iff]

/-- Whatever the octets of a settings file and of a file of variables: loading the settings gives
settings of the right types or says that the file is invalid exactly if the octets are a sound text
for settings, and loading the variables gives variables or says so exactly if the octets are a sound
text for variables. -/
theorem loadsWell_iff (hsettings : w.read (Settings.file root) = .ok content)
    (hvars : w.read varsFile = .ok content') :
    (Settings.LoadsWell (Settings.file root) (Settings.load w root) ↔
      ∃ cs, Text.Utf8.decode content = .ok cs ∧ Settings.IsSound (Text.unifyNewlines cs)) ∧
    (Variables.LoadsWell varsFile (Variables.load w varsFile) ↔
      ∃ cs, Text.Utf8.decode content' = .ok cs ∧ Variables.IsSound (Text.unifyNewlines cs)) :=
  ⟨Settings.loadsWell_iff_of_read hsettings, Variables.loadsWell_iff_of_read hvars⟩

end

/-- A project with these octets as its settings file and as a file of variables. -/
def holding (settings vars : List UInt8) : Workspace where
  tree.entries := [
    ([".specker"], .dir),
    ([".specker", "config.json"], .file settings),
    (["v.yaml"], .file vars)]
  tree.nodup := show List.Nodup [[(".specker" : Text)], [".specker", "config.json"], ["v.yaml"]] by
    decide

section
variable {settings vars : List UInt8}

theorem read_holding : (holding settings vars).read (Settings.file {}) = .ok settings := by
  rfl

theorem read_holding_vars : (holding settings vars).read ⟨.relative, ["v.yaml"]⟩ = .ok vars := by
  rfl

end

theorem loadsWell_holding :
    Settings.LoadsWell (Settings.file {})
      (Settings.load (holding (Text.Utf8.encode "\x7b\x7d\n".toList) [0xFF]) {}) ∧
    ¬Variables.LoadsWell ⟨.relative, ["v.yaml"]⟩
      (Variables.load (holding (Text.Utf8.encode "\x7b\x7d\n".toList) [0xFF])
        ⟨.relative, ["v.yaml"]⟩) := by
  obtain ⟨hsettings, hvars⟩ := loadsWell_iff read_holding
    (@read_holding_vars (Text.Utf8.encode "\x7b\x7d\n".toList) [0xFF])
  have hread : Json.read "\x7b\x7d\n".toList = .ok (.object []) :=
    Json.read_toChars Json.fits_object_nil (.object nofun nofun)
  have hdecode : (Text.Utf8.decode [0xFF]).isOk = false := by decide +kernel
  constructor
  · exact hsettings.2 ⟨_, Text.Utf8.decode_encode _, .inr ⟨[], hread, nofun, nofun, nofun⟩⟩
  · rw [hvars]
    rintro ⟨cs, hcs, -⟩
    rw [hcs] at hdecode
    cases hdecode

/-- A settings file can hold data that is no object, which is neither loaded nor said to be
invalid. -/
theorem not_loadsWell_of_array : ¬∀ (w : Workspace) (root : Path) (content : List UInt8),
    w.read (Settings.file root) = .ok content →
      Settings.LoadsWell (Settings.file root) (Settings.load w root) := by
  intro h
  have hsettings := @read_holding (Text.Utf8.encode "[]\n".toList) []
  have hread : Json.read "[]\n".toList = .ok (.array []) :=
    @Json.read_toChars (.array []) (.array (List.forall_mem_nil _)) (.array (List.forall_mem_nil _))
  obtain ⟨cs, hcs, hsound⟩ :=
    (Settings.loadsWell_iff_of_read hsettings).1 (h _ _ _ hsettings)
  rw [Text.Utf8.decode_encode] at hcs
  obtain rfl := Except.ok.inj hcs
  rcases hsound with ⟨e, he⟩ | ⟨members, hmembers, -⟩
  · cases he.symm.trans hread
  · cases hmembers.symm.trans hread

end LineSpec
