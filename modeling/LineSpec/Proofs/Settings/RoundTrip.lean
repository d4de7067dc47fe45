import LineSpec.Proofs.Json.RoundTrip
import LineSpec.Proofs.Text.Printable
import LineSpec.Proofs.Tree.Change
import LineSpec.Settings.File
import LineSpec.Settings.Typed
/-!
# Settings that are read back

Settings as JSON are the settings again (`ofJson?_toJson`), and where their JSON can be written, the
file that is written for them is read as the same settings (`load_of_written`). What is read from
data that can be written can be written in its turn (`writable_of_ofJson?`): a setting is a member
of the data or a default, and a variable is a text, or another value as a text on one line, which
holds no surrogate.
-/

namespace LineSpec

/-! ## Values on one line -/

namespace Json

open Text

theorem nestedItems_eq (items : List Json) : nestedItems items = items.map nested := by
  induction items with
  | nil => rfl
  | cons item items ih => rw [nestedItems, ih, List.map_cons]

theorem nestedMembers_eq (members : Bindings Json) :
    nestedMembers members = members.map fun p => (quoted p.1, p.2.nested) := by
  induction members with
  | nil => rfl
  | cons member members ih => rw [nestedMembers, ih, List.map_cons]

/-- The text of data inside a collection holds no surrogate. -/
theorem Plain.nested {j : Json} (h : j.Plain) : j.nested.Plain := by
  induction h with
  | null | int => exact Text.plain_ofString _
  | bool b => cases b <;> exact Text.plain_ofString _
  | text => exact plain_quoted _
  | array _ ih =>
    rw [Json.nested, nestedItems_eq, Scalar.listText]
    refine ((Text.plain_ofString _).append ?_).append (Text.plain_ofString _)
    exact plain_join (Text.plain_ofString _) (List.forall_mem_map.2 ih)
  | object _ _ ih =>
    rw [Json.nested, nestedMembers_eq, Scalar.mappingText]
    refine ((Text.plain_ofString _).append ?_).append (Text.plain_ofString _)
    refine plain_join (Text.plain_ofString _) ?_
    rw [List.map_map, List.forall_mem_map]
    exact fun p hp => ((plain_quoted p.1).append (Text.plain_ofString _)).append (ih p hp)

theorem Plain.alone {j : Json} (h : j.Plain) : j.alone.Plain := by
  cases h with
  | text points => exact points
  | null => exact Plain.null.nested
  | bool b => exact (Plain.bool b).nested
  | int n => exact (Plain.int n).nested
  | array each => exact (Plain.array each).nested
  | object names each => exact (Plain.object names each).nested

theorem plain_ofString (s : String) : Plain (.text s) := .text (Text.plain_ofString s)

end Json

namespace Settings

open Json (Fits Plain maxDepth)

variable {s : Settings} {j : Json}

/-! ## Settings as data -/

theorem ofJson?_toJson (s : Settings) : ofJson? s.toJson = some s := by
  have hvars : variablesOf? (.object (s.vars.map fun p => (p.1, Json.text p.2))) = some s.vars := by
    rw [variablesOf?, List.map_map]
    exact congrArg some (List.map_id _)
  have hget : ofJson? s.toJson = (variablesOf? (.object (s.vars.map fun p =>
      (p.1, Json.text p.2)))).map fun vars => { s with vars } := rfl
  rw [hget, hvars]
  rfl

/-- Settings whose JSON is read back from what is written for it. -/
structure Writable (s : Settings) : Prop where
  fits : Fits maxDepth s.toJson
  plain : s.toJson.Plain

/-- A value that is read back as one of the settings. -/
structure WritableValue (j : Json) : Prop where
  fits : Fits (maxDepth - 1) j
  plain : j.Plain

/-- The settings besides the variables. -/
def values (s : Settings) : List Json :=
  [s.version, s.specDir, s.extension, s.root, s.skip, s.item, s.opening, s.closing, s.strictEnd]

/-- The names of the members that settings are kept as. -/
def memberNames : List Text :=
  ["version", "spec_dir", "extension", "root", Marker.skip.label, Marker.item.label,
    Marker.opening.label, Marker.closing.label, "strict_eof", "variables"]

/-- Settings are read back if each of them is and the variables have distinct names. -/
theorem writable_of_values (hvalues : ∀ j ∈ s.values, WritableValue j)
    (hdistinct : s.vars.names.Nodup)
    (hvars : ∀ p ∈ s.vars, p.1.Plain ∧ p.2.Plain) :
    s.Writable := by
  have hvariables : WritableValue (.object (s.vars.map fun p => (p.1, Json.text p.2))) := by
    refine ⟨.object ?_ ?_, .object ?_ ?_⟩
    · rwa [Assoc.names, List.map_map]
    · exact List.forall_mem_map.2 fun p _ => .text _
    · exact List.forall_mem_map.2 fun p hp => (hvars p hp).1
    · exact List.forall_mem_map.2 fun p hp => .text (hvars p hp).2
  have hname : ∀ name : String, (name : Text).Plain := Text.plain_ofString
  simp only [values, List.forall_mem_cons] at hvalues
  obtain ⟨hversion, hspecDir, hextension, hroot, hskip, hitem, hopening, hclosing, hstrictEnd, -⟩ :=
    hvalues
  constructor
  · have hnames : memberNames.Nodup := by decide
    refine Fits.object hnames ?_
    simp only [List.forall_mem_cons]
    exact ⟨hversion.fits, hspecDir.fits, hextension.fits, hroot.fits, hskip.fits, hitem.fits,
      hopening.fits, hclosing.fits, hstrictEnd.fits, hvariables.fits, List.forall_mem_nil _⟩
  · refine Plain.object ?_ ?_
    · simp only [List.forall_mem_cons]
      exact ⟨hname _, hname _, hname _, hname _, hname _, hname _, hname _, hname _, hname _,
        hname _, List.forall_mem_nil _⟩
    · simp only [List.forall_mem_cons]
      exact ⟨hversion.plain, hspecDir.plain, hextension.plain, hroot.plain, hskip.plain,
        hitem.plain, hopening.plain, hclosing.plain, hstrictEnd.plain, hvariables.plain,
        List.forall_mem_nil _⟩

namespace Typed

/-- The texts of settings besides the variables. -/
def texts (s : Typed) : List Text :=
  [s.version, s.specDir, s.extension, s.root, s.skip, s.item, s.opening, s.closing]

/-- Settings of the right types, with variables of distinct names, in which no text holds a
surrogate. -/
structure IsPlain (s : Typed) : Prop where
  texts : ∀ t ∈ s.texts, t.Plain
  vars : ∀ p ∈ s.vars, p.1.Plain ∧ p.2.Plain
  distinct : s.vars.names.Nodup

instance (s : Typed) : Decidable s.IsPlain :=
  decidable_of_iff ((∀ t ∈ s.texts, t.Plain) ∧ (∀ p ∈ s.vars, p.1.Plain ∧ p.2.Plain) ∧
      s.vars.names.Nodup)
    ⟨fun h => ⟨h.1, h.2.1, h.2.2⟩, fun h => ⟨h.texts, h.vars, h.distinct⟩⟩

end Typed

theorem Typed.IsPlain.writable {s : Typed} (h : s.IsPlain) : s.toSettings.Writable := by
  refine writable_of_values ?_ h.distinct h.vars
  have htext : ∀ t : Text, t.Plain → WritableValue (.text t) := fun t ht => ⟨.text t, .text ht⟩
  have hstrictEnd : WritableValue (.bool s.strictEnd) := ⟨.bool _, .bool _⟩
  have htexts := h.texts
  simp only [Typed.texts, List.forall_mem_cons] at htexts
  obtain ⟨hversion, hspecDir, hextension, hroot, hskip, hitem, hopening, hclosing, -⟩ := htexts
  simp only [values, toSettings, List.forall_mem_cons]
  exact ⟨htext _ hversion, htext _ hspecDir, htext _ hextension, htext _ hroot, htext _ hskip,
    htext _ hitem, htext _ hopening, htext _ hclosing, hstrictEnd, List.forall_mem_nil _⟩

/-! ## What is read -/

/-- The variables of data that can be written can be written as texts. -/
theorem writable_vars {vars : Bindings Text} (h : variablesOf? j = some vars)
    (hj : WritableValue j) : vars.names.Nodup ∧
    ∀ p ∈ vars, p.1.Plain ∧ p.2.Plain := by
  obtain ⟨hfits, hplain⟩ := hj
  cases hplain with
  | object names plain =>
    cases hfits with
    | object distinct fits =>
      obtain rfl := Option.some.inj h
      refine ⟨?_, List.forall_mem_map.2 fun p hp => ⟨names p hp, (plain p hp).alone⟩⟩
      rwa [Assoc.names, List.map_map]
  | _ => cases h

/-- The settings that the data of a text holds can be written. -/
theorem writable_of_ofJson? (h : ofJson? j = some s) (hfits : Fits maxDepth j) (hplain : j.Plain) :
    s.Writable := by
  cases hplain with
  | @object members names plain =>
    cases hfits with
    | object distinct fits =>
      have hget : ∀ (name : Text) (default : Json), WritableValue default →
          WritableValue ((Assoc.get? members name).getD default) := by
        intro name default hdefault
        cases hmember : Assoc.get? members name with
        | none => exact hdefault
        | some value =>
          have hmem := (Assoc.mem_iff_get? distinct).2 hmember
          exact ⟨fits _ hmem, plain _ hmem⟩
      have htext : ∀ name default : String,
          WritableValue ((Assoc.get? members name).getD (.text default)) :=
        fun _ _ => hget _ _ ⟨.text _, Json.plain_ofString _⟩
      rw [ofJson?] at h
      obtain ⟨vars, hvars, rfl⟩ := Option.map_eq_some_iff.1 h
      obtain ⟨hdistinct, hpoints⟩ :=
        writable_vars hvars (hget _ _ ⟨Json.fits_object_nil, .object nofun nofun⟩)
      refine writable_of_values ?_ hdistinct hpoints
      simp only [values, List.forall_mem_cons]
      exact ⟨htext _ _, htext _ _, htext _ _, htext _ _, htext _ _, htext _ _, htext _ _,
        htext _ _, hget _ _ ⟨.bool _, .bool _⟩, List.forall_mem_nil _⟩
  | _ => cases h

/-! ## The file -/

theorem ofChars_toChars (h : s.Writable) (file : Path) : ofChars file s.toChars = .ok s := by
  rw [ofChars, toChars, Json.read_toChars h.fits h.plain]
  simp only [ofJson?_toJson]

theorem isWritten_of_mem_toChars (h : s.Writable) : ∀ c ∈ s.toChars, Json.IsWritten c := by
  rw [toChars, List.forall_mem_append]
  exact ⟨Json.isWritten_of_mem_write h.plain 0, Json.isWritten_of_all (by decide)⟩

section
variable {w : Workspace} {root : Path} {loc : Location}

/-- The octets of a file alone decide what characters are read from it. -/
theorem readChars_of_read {p : Path} {content : List UInt8} (h : w.read p = .ok content) :
    w.readChars p =
      match Text.Utf8.decode content with
      | .error fault => .error (.inr fault)
      | .ok cs => .ok (Text.unifyNewlines cs) := by
  cases hdecode : Text.Utf8.decode content <;> simp [Workspace.readChars, h, hdecode]

theorem isPresent_of_locate {node : Node} (h : w.locate (file root) = .ok (.taken loc node)) :
    isPresent w root = .ok true := by
  rw [isPresent, Workspace.exists, Workspace.node?, h]
  rfl

/-- Where the settings file can be read, it is there, and its octets alone decide what is
loaded. -/
theorem load_of_read {content : List UInt8} (h : w.read (file root) = .ok content) :
    isPresent w root = .ok true ∧
      load w root =
        match Text.Utf8.decode content with
        | .error fault => .error (.encoding fault)
        | .ok cs => ofChars (file root) (Text.unifyNewlines cs) := by
  obtain ⟨_, _, hplace, -⟩ := Workspace.exists_locate_of_read h
  have hpresent := isPresent_of_locate hplace
  refine ⟨hpresent, ?_⟩
  rw [load, hpresent]
  simp only [readChars_of_read h]
  cases Text.Utf8.decode content <;> rfl

/-- The file of settings that can be written is read as the same settings. -/
theorem load_of_written (h : s.Writable)
    (hread : w.read (file root) = .ok (Text.Utf8.encode s.toChars)) : load w root = .ok s := by
  have hreturn : '\r' ∉ s.toChars := fun hmem =>
    absurd (isWritten_of_mem_toChars h _ hmem) (by decide)
  rw [(load_of_read hread).2, Text.Utf8.decode_encode]
  simp only [Text.unifyNewlines_eq_self hreturn, ofChars_toChars h]

end

end Settings

end LineSpec
