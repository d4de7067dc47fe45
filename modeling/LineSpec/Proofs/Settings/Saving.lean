import LineSpec.Proofs.Settings.RoundTrip
import LineSpec.Proofs.Tree.Directories
/-!
# Settings that are saved

Saving makes the directory of the settings, and those above it that are missing, and writes the
settings file. Settings that can be written are loaded again, from a file of ASCII, unless it is no
file or one that may not be read, and besides the directories that were missing and the file nothing
changes (`load_of_save`, `saving_falls_short`).

Where settings are loaded from a file that they could have been written to, neither making
directories nor saving them again, whether that succeeds or not, changes what is loaded
(`load_ensureDirs`, `load_save`).
-/

namespace LineSpec.Settings

open Workspace Text

variable {s : Settings} {w w' : Workspace} {root p : Path} {loc : Location}

/-! ## Saving -/

theorem save_eq_ok_iff {f : Path} :
    s.save w root = (w', .ok f) ↔ ∃ w₁, w.ensureDirs (dir root) = (w₁, .ok ()) ∧
      w₁.write (file root) (Utf8.encode s.toChars) = (w', .ok ()) ∧ f = file root := by
  constructor
  · intro h
    rw [save] at h
    split at h
    · cases h
    next hdirs =>
      split at h
      · cases h
      next hwrite =>
        obtain ⟨rfl, hf⟩ := Prod.mk.inj h
        exact ⟨_, hdirs, hwrite, (Except.ok.inj hf).symm⟩
  · rintro ⟨w₁, hdirs, hwrite, rfl⟩
    rw [save, hdirs]
    simp only [hwrite]

/-- Text of printable ASCII and line feeds has octets of ASCII. -/
theorem toNat_lt_of_mem_encode (h : s.Writable) :
    ∀ b ∈ Utf8.encode s.toChars, b.toNat < 0x80 := by
  intro b hb
  obtain ⟨c, hc, hb⟩ := List.mem_flatMap.1 hb
  have hlt := (isWritten_of_mem_toChars h c hc).toNat_lt
  simp only [Utf8.encodeChar, if_pos hlt, List.mem_singleton] at hb
  rw [hb, Utf8.toNat_ofNat (by omega)]
  exact hlt

/-- Where saving succeeds, the settings file has received its content. -/
theorem received_of_save {f : Path} (h : s.save w root = (w', .ok f)) :
    w'.Received (file root) (Utf8.encode s.toChars) := by
  obtain ⟨w₁, -, hwrite, -⟩ := save_eq_ok_iff.1 h
  exact received_of_write hwrite

/-- Off the settings file, saving that succeeds has made directories, and no more. -/
theorem exists_makesDirs_of_save {f : Path} (h : s.save w root = (w', .ok f)) :
    ∃ w₁, MakesDirs (dir root) w w₁ ∧
      ∀ loc, loc ≠ w.resolved (file root) → w'.tree.get? loc = w₁.tree.get? loc := by
  obtain ⟨w₁, hdirs, hwrite, -⟩ := save_eq_ok_iff.1 h
  have hmakes : MakesDirs (dir root) w w₁ := by
    have hmakes := makesDirs_ensureDirs w (dir root)
    rwa [hdirs] at hmakes
  refine ⟨w₁, hmakes, fun loc hne => ?_⟩
  obtain ⟨rfl, -⟩ := write_eq_ok hwrite
  rw [resolved_eq hmakes.home]
  exact get?_withContent_of_ne hne

/-- Once settings of the right types without surrogates are saved, settings are present. A file that
stands there is one of ASCII, and they are loaded from it as they were saved if it may be read.
Nothing changes but the file and directories that were missing on the way to it; if the directory of
the project is there, this is only the directory of the settings. -/
theorem load_of_save {s : Typed} (hs : s.IsPlain) {f : Path}
    (hsave : s.toSettings.save w root = (w', .ok f)) :
    isPresent w' root = .ok true ∧
    (∀ loc content, w'.locate (file root) = .ok (.taken loc (.file content)) →
      (∀ b ∈ content, b.toNat < 0x80) ∧
        (w'.tree.CanRead loc → load w' root = .ok s.toSettings)) ∧
    (∀ loc, w'.tree.get? loc ≠ w.tree.get? loc →
      loc = w.resolved (file root) ∨
        w.tree.get? loc = none ∧ w'.tree.get? loc = some .dir ∧
          ∃ q, q.IsAbove (dir root) ∧ loc = w.resolved q) ∧
    (w.isDir root = .ok true → ∀ loc, w'.tree.get? loc ≠ w.tree.get? loc →
      loc = w.resolved (dir root) ∨ loc = w.resolved (file root)) := by
  have hreceived := received_of_save hsave
  obtain ⟨w₁, hmakes, hother⟩ := exists_makesDirs_of_save hsave
  refine ⟨hreceived.elim isPresent_of_locate isPresent_of_locate, fun loc content hplace => ?_,
    fun loc hne => ?_, fun hroot loc hne => ?_⟩
  · obtain rfl := hreceived.content_eq hplace
    exact ⟨toNat_lt_of_mem_encode hs.writable,
      fun hopen => load_of_written hs.writable (read_of_locate hplace hopen)⟩
  · by_cases hfile : loc = w.resolved (file root)
    · exact .inl hfile
    · rw [hother loc hfile] at hne ⊢
      obtain ⟨hnone, hnew, q, hq, hloc, -⟩ := hmakes.made loc hne
      exact .inr ⟨hnone, hnew, q, hq, hloc⟩
  · obtain ⟨l, hroot⟩ := exists_locate_of_isDir hroot
    by_cases hfile : loc = w.resolved (file root)
    · exact .inr hfile
    · rw [hother loc hfile] at hne
      exact .inl (hmakes.eq_resolved_of_below hroot hne)

/-- Settings with a quote, a backslash, line ends and a code point beyond the first plane. -/
def unusual : Typed where
  version := "\"\\\r\n"
  opening := [CodePoint.ofNat 0x1F600]
  strictEnd := true
  vars := [("\u00E9", "\t"), ("a", "")]

theorem load_of_save_unusual :
    load (unusual.toSettings.save {} ⟨.relative, ["a"]⟩).1 ⟨.relative, ["a"]⟩ =
      .ok unusual.toSettings := by
  have hsave : unusual.toSettings.save {} ⟨.relative, ["a"]⟩ =
      ((unusual.toSettings.save {} ⟨.relative, ["a"]⟩).1, .ok (file ⟨.relative, ["a"]⟩)) :=
    Prod.ext rfl (show (unusual.toSettings.save {} ⟨.relative, ["a"]⟩).2 = _ by decide +kernel)
  exact ((load_of_save (by decide +kernel) hsave).2.1 ["a", ".specker", "config.json"]
    (Utf8.encode unusual.toSettings.toChars) (by decide +kernel)).2 (by decide +kernel)

/-- A project whose settings go to a device. -/
def discarding : Workspace where
  tree.entries := [([".specker"], .dir), ([".specker", "config.json"], .device), (["spec"], .dir)]

/-- Saving can change more than the directory of the settings and the file in it: a directory that
the path of the project passes through is made, even where the path leads back out of it. And what
was saved is not always loaded again: a device takes it and keeps nothing. -/
theorem saving_falls_short :
    (¬∀ (s : Typed) (w w' : Workspace) (root f : Path), s.IsPlain →
      s.toSettings.save w root = (w', .ok f) → ∀ loc, w'.tree.get? loc ≠ w.tree.get? loc →
        loc = w.resolved (dir root) ∨ loc = w.resolved (file root)) ∧
    ¬∀ (s : Typed) (w w' : Workspace) (root f : Path), s.IsPlain →
      s.toSettings.save w root = (w', .ok f) → load w' root = .ok s.toSettings := by
  have hplain : Typed.IsPlain {} := by decide
  constructor
  · intro h
    have hsave : (Typed.toSettings {}).save {} ⟨.relative, ["a", ".."]⟩ =
        (((Typed.toSettings {}).save {} ⟨.relative, ["a", ".."]⟩).1,
          .ok (file ⟨.relative, ["a", ".."]⟩)) :=
      Prod.ext rfl (show ((Typed.toSettings {}).save {} ⟨.relative, ["a", ".."]⟩).2 = _ by
        decide +kernel)
    have hmade : ((Typed.toSettings {}).save {} ⟨.relative, ["a", ".."]⟩).1.tree.get?
        (["a"] : Location) = some .dir := by
      decide +kernel
    have hnone : (Workspace.tree {}).get? (["a"] : Location) = none := by decide
    have hlocation := h {} {} _ _ _ hplain hsave ["a"] (by rw [hmade, hnone]; exact nofun)
    exact absurd hlocation (by decide +kernel)
  · intro h
    have hsave : (Typed.toSettings {}).save discarding {} =
        (((Typed.toSettings {}).save discarding {}).1, .ok (file {})) :=
      Prod.ext rfl (show ((Typed.toSettings {}).save discarding {}).2 = _ by decide +kernel)
    have hfails : (load ((Typed.toSettings {}).save discarding {}).1 {}).isOk = false := by
      decide +kernel
    rw [h {} discarding _ _ _ hplain hsave] at hfails
    cases hfails

/-! ## Saving what was loaded -/

/-- Settings are loaded from something that can be read. -/
theorem exists_read_of_load (h : load w root = .ok s) :
    ∃ content, w.read (file root) = .ok content := by
  rw [load] at h
  split at h
  · cases h
  · cases h
  · split at h
    · cases h
    · cases h
    next hchars =>
      rw [readChars] at hchars
      split at hchars
      · cases hchars
      next content hread => exact ⟨content, hread⟩

/-- Making directories does not change what is loaded. -/
theorem load_ensureDirs (h : load w root = .ok s) (p : Path) :
    load (w.ensureDirs p).1 root = .ok s := by
  obtain ⟨content, hread⟩ := exists_read_of_load h
  have hkept := (keeps_ensureDirs w p).read_eq_ok id hread
  rw [(load_of_read hkept).2, ← (load_of_read hread).2, h]

/-- Saving the settings that were loaded, whether or not it succeeds, does not change what is
loaded. -/
theorem load_save (hs : s.Writable) (h : load w root = .ok s) :
    load (s.save w root).1 root = .ok s := by
  have hdirs := load_ensureDirs h (dir root)
  rw [save]
  split
  next heq =>
    rw [heq] at hdirs
    exact hdirs
  next heq =>
    rw [heq] at hdirs
    split
    next heq' => exact eq_of_write_eq_error heq' ▸ hdirs
    next heq' =>
      obtain ⟨content, hread⟩ := exists_read_of_load hdirs
      have hopen := canRead_resolved_of_read hread
      rw [Tree.CanRead, ← (keeps_write heq').closed] at hopen
      rcases locate_of_write heq' with hplace | ⟨rfl, -⟩
      · exact load_of_written hs (read_of_locate hplace hopen)
      · exact hdirs

end LineSpec.Settings
