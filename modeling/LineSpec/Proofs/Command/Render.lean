import LineSpec.Proofs.Command.Setup
import LineSpec.Proofs.Tree.Growth
/-!
# What rendering writes

Rendering into a directory deals with one item after the other: it makes the directories above the
item's path and writes the file. So whatever is new or other afterwards stands where the path of an
item, or one above it, leads (`render_moves`).

That path is the item's value as seen from the directory, and a value may climb out of the directory
or begin at the root. An item whose value never climbs above the directory leaves everything outside
as it is (`render_changes`); one that does can write anywhere (`render_escapes`).
-/

namespace LineSpec.Command

open Session

/-- The document of a request, and how it is read: with the settings and variables that the
workspace has for it. -/
def RenderRequest.Loads (r : RenderRequest) (w : Workspace) (reading : Reading Misfit)
    (d : Document) : Prop :=
  ∃ s vars o, projectSettings w = .ok s ∧
    Variables.collect w s.vars r.varsFile r.assignments = .ok vars ∧
    s.options none = .ok o ∧ reading = o.reading vars ∧
    (Survey.loadFile reading w r.specFile).result = .ok d

variable {a a' : Answer} {reading : Reading Misfit} {d : Document} {file : Path}

theorem exec_documentOrFail_eq_ok_iff :
    exec (documentOrFail reading file) a = (.ok d, a') ↔
      (Survey.loadFile reading a.workspace file).result = .ok d ∧
        a' = { a with
          events := a.events ++ (Survey.loadFile reading a.workspace file).events } := by
  rw [documentOrFail, exec_bind_ok exec_workspace, exec_bind_ok (exec_noted _)]
  cases (Survey.loadFile reading a.workspace file).result with
  | ok d' => simp [exec_pure, eq_comm]
  | error e =>
    refine iff_of_false (Ends.exec_ne_ok ?_) nofun
    cases e with
    | parse e => exact ends_fail _
    | encoding fault => exact ends_fail _
    | access e =>
      dsimp only
      split
      · exact ends_fail _
      · exact ends_breakOff _
    | refused m => exact ends_breakOff _

section
variable {R : Workspace → Workspace → Prop} [Std.Refl R] [IsTrans Workspace R]

theorem moves_documentOrFail : Moves R (documentOrFail reading file) a := by
  refine moves_workspace.bind fun w _ _ => (moves_noted _).bind fun result _ _ => ?_
  split
  · exact .pure _
  · exact moves_fail _
  · exact moves_fail _
  · split
    · exact moves_fail _
    · exact moves_breakOff _
  · exact moves_breakOff _

/-- Rendering changes the workspace as rendering the items does, one after the other. -/
theorem moves_render {r : RenderRequest}
    (h : ∀ reading d, r.Loads a.workspace reading d → ∀ t ∈ d.declaring r.param, ∀ a,
      Moves R (renderItem reading r.out t.1 t.2) a) :
    Moves R (render r) a := by
  refine moves_settingsOrFail.bind fun s _ hrun => ?_
  obtain ⟨hs, rfl⟩ := exec_settingsOrFail_eq_ok_iff.1 hrun
  refine moves_variablesOrFail.bind fun vars _ hrun => ?_
  obtain ⟨hvars, rfl⟩ := exec_variablesOrFail_eq_ok_iff.1 hrun
  refine moves_optionsOrFail.bind fun o _ hrun => ?_
  obtain ⟨ho, rfl⟩ := exec_optionsOrFail_eq_ok_iff.1 hrun
  refine moves_documentOrFail.bind fun d _ hrun => ?_
  obtain ⟨hd, rfl⟩ := exec_documentOrFail_eq_ok_iff.1 hrun
  have hloads : r.Loads _ (o.reading vars) d := ⟨s, vars, o, hs, hvars, ho, rfl, hd⟩
  refine Moves.bind (.mapM fun t ht a => h _ d hloads t ht a) fun done _ _ => ?_
  split
  · exact moves_exit Nat.one_ne_zero
  · exact .pure _

end

/-! ## One item -/

theorem moves_writeBelow (out : Path) (name content : Text) :
    Moves (Workspace.Grows (·.IsAbove (out.child name))) (writeBelow out name content) a := by
  have hdirs : ∀ a, Moves (Workspace.Grows (·.IsAbove (out.child name)))
      (act fun w => w.ensureDirs (out.child name).parent) a := fun a =>
    moves_act ((a.workspace.grows_ensureDirs _).mono fun q hq =>
      hq.trans (Path.parent_isAbove _))
  have hwrite : ∀ octets a, Moves (Workspace.Grows (·.IsAbove (out.child name)))
      (act fun w => w.write (out.child name) octets) a := fun octets a =>
    moves_act (a.workspace.grows_write _ _)
  refine (hdirs a).bind fun _ _ _ => ?_
  split
  · exact (hwrite _ _).bind fun _ _ _ => moves_printLine _
  · exact (hwrite _ _).bind fun _ _ _ => moves_breakOff _

/-- Rendering an item puts something only where its path, or one above it, leads. -/
theorem moves_renderItem (out : Path) (item : Item) (name : Text) :
    Moves (Workspace.Grows (·.IsAbove (out.child name)))
      (renderItem reading (some out) item name) a := by
  have hreport : ∀ text : Text, ∀ a, Moves (Workspace.Grows (·.IsAbove (out.child name)))
      (do printLine text; return false : Session Bool) a := fun text a =>
    (moves_printLine _).bind fun _ _ _ => .pure _
  rw [renderItem]
  split
  · exact hreport _ _
  · exact hreport _ _
  · exact moves_breakOff _
  · exact (moves_writeBelow ..).bind fun _ _ _ => .pure _

/-! ## The whole run -/

/-- Rendering into a directory puts something only where the path of an item, or one above it,
leads. -/
theorem moves_render_below {r : RenderRequest} {out : Path} (hout : r.out = some out) :
    Moves (Workspace.Grows fun q => ∃ reading d, r.Loads a.workspace reading d ∧
      ∃ t ∈ d.declaring r.param, q.IsAbove (out.child t.2)) (render r) a := by
  refine moves_render fun reading d hloads t ht a => ?_
  rw [hout]
  exact (moves_renderItem out t.1 t.2).mono fun _ _ hgrows =>
    hgrows.mono fun q hq => ⟨reading, d, hloads, t, ht, hq⟩

/-- Every location at which rendering into a directory changes something is one that the path of an
item, or one above it, leads to. It is the directory, above it or below it if the item's value, as
seen from the directory, never climbs above it. -/
theorem render_changes {w : Workspace} {args : List String} {r : RenderRequest} {verbose : Bool}
    {out : Path} (hargs : Request.ofArguments w args = .ok (.render r, verbose))
    (hout : r.out = some out) {loc : Location}
    (hchanged : (run w args).workspace.tree.get? loc ≠ w.tree.get? loc) :
    ∃ reading d, r.Loads w reading d ∧ ∃ t ∈ d.declaring r.param,
      (∃ q : Path, q.IsAbove (out.child t.2) ∧ (run w args).workspace.LeadsTo q loc) ∧
      (Path.StaysBelow t.2 → (run w args).workspace.AtOrBelow out loc) := by
  have hrun : (run w args).workspace = (answer (render r) w).workspace := by
    rw [run, hargs]
    rfl
  have hgrows : Workspace.Grows
      (fun q => ∃ reading d, r.Loads w reading d ∧ ∃ t ∈ d.declaring r.param,
        q.IsAbove (out.child t.2)) w (run w args).workspace := by
    rw [hrun]
    have hmoves : Moves _ (render r) { workspace := w } := moves_render_below hout
    exact workspace_answer hmoves
  -- the step that changed the location belongs to one item
  obtain ⟨q, ⟨reading, d, hloads, t, ht, habove⟩, hleads⟩ := hgrows.leadsTo_of_changed hchanged
  refine ⟨reading, d, hloads, t, ht, ⟨q, habove, hleads⟩, fun ⟨hroot, hstays⟩ => ?_⟩
  rw [Path.child, Path.join, hroot] at habove
  exact Workspace.atOrBelow_of_stays habove hleads hstays

/-- A workspace with a specification of a file with this name, and with an old file. -/
def asking (name : String) : Workspace where
  tree.entries := [
    (["s.txt"], .file (Text.Utf8.encode ("## file: " ++ name ++ "\nnew\n").toList)),
    (["x"], .file (Text.Utf8.encode "old\n".toList))]
  tree.nodup := show List.Nodup [[("s.txt" : Text)], ["x"]] by decide

theorem render_changes_asking :
    (run (asking "a/x") ["render", "s.txt", "--out", "out"]).workspace.tree.get?
        (["out", "a", "x"] : Location) = some (.file (Text.Utf8.encode "new\n".toList)) ∧
      (run (asking "a/x") ["render", "s.txt", "--out", "out"]).workspace.AtOrBelow
        ⟨.relative, ["out"]⟩ ["out", "a", "x"] := by
  have hargs : Request.ofArguments (asking "a/x") ["render", "s.txt", "--out", "out"] =
      .ok (.render { specFile := ⟨.relative, ["s.txt"]⟩, out := some ⟨.relative, ["out"]⟩ },
        false) := by
    decide +kernel
  have hnew : (run (asking "a/x") ["render", "s.txt", "--out", "out"]).workspace.tree.get?
      (["out", "a", "x"] : Location) = some (.file (Text.Utf8.encode "new\n".toList)) := by
    decide +kernel
  have hold : (asking "a/x").tree.get? (["out", "a", "x"] : Location) = none := by decide
  obtain ⟨reading, d, hloads, t, ht, -, hbelow⟩ :=
    render_changes hargs rfl (hnew.trans_ne (hold ▸ nofun))
  obtain ⟨s, vars, o, hs, hvars, ho, rfl, hd⟩ := hloads
  obtain rfl := Except.ok.inj hs
  obtain rfl := Except.ok.inj hvars
  obtain rfl := Except.ok.inj ho
  obtain rfl := Except.ok.inj (hd.symm.trans (show _ = Except.ok
    ⟨[⟨[("file", "a/x")], [.literal "new" 2], 1⟩], some "s.txt"⟩ by decide +kernel))
  have hvalues : ∀ t ∈ Document.declaring ⟨[⟨[("file", "a/x")], [.literal "new" 2], 1⟩],
      some "s.txt"⟩ "file", Path.StaysBelow t.2 := by
    decide +kernel
  exact ⟨hnew, hbelow (hvalues t ht)⟩

/-- The value of an item can lead out of the directory: a file beside it is overwritten. -/
theorem render_escapes :
    Request.ofArguments (asking "../x") ["render", "s.txt", "--out", "out"] =
      .ok (.render { specFile := ⟨.relative, ["s.txt"]⟩, out := some ⟨.relative, ["out"]⟩ },
        false) ∧
    (run (asking "../x") ["render", "s.txt", "--out", "out"]).exitCode = 0 ∧
    (asking "../x").tree.get? (["x"] : Location) =
      some (.file (Text.Utf8.encode "old\n".toList)) ∧
    (run (asking "../x") ["render", "s.txt", "--out", "out"]).workspace.tree.get?
      (["x"] : Location) = some (.file (Text.Utf8.encode "new\n".toList)) ∧
    ¬(run (asking "../x") ["render", "s.txt", "--out", "out"]).workspace.AtOrBelow
      ⟨.relative, ["out"]⟩ ["x"] := by
  refine ⟨by decide +kernel, by decide +kernel, by decide +kernel, by decide +kernel, ?_⟩
  -- the directory was made on the way to the file, and stands beside it
  have hhome : (run (asking "../x") ["render", "s.txt", "--out", "out"]).workspace.home = [] := by
    decide +kernel
  have hout : Workspace.follow
      (run (asking "../x") ["render", "s.txt", "--out", "out"]).workspace.tree [] ["out"] =
        .ok (.taken ["out"] .dir) := by
    decide +kernel
  have horigin : ∀ q : Path, q.root = .relative →
      (run (asking "../x") ["render", "s.txt", "--out", "out"]).workspace.origin q = [] := by
    intro q hroot
    rw [Workspace.origin, if_pos hroot, hhome]
  rintro (⟨⟨hroot, hparts⟩, node, hleads⟩ | ⟨⟨node, hleads⟩, hbegins⟩)
  · rw [horigin _ hroot] at hleads
    rcases List.prefix_cons_iff.1 hparts with hnil | ⟨names, hnames, hrest⟩
    · rw [hnil] at hleads
      cases hleads
    · obtain rfl := List.prefix_nil.1 hrest
      rw [hnames, hout] at hleads
      cases hleads
  · rw [horigin _ rfl, hout] at hleads
    obtain ⟨rfl, -⟩ := Workspace.Place.taken.inj (Except.ok.inj hleads)
    exact absurd hbegins (by decide)

end LineSpec.Command
