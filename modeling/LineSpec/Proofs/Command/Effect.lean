import LineSpec.Proofs.Command.Dealing
import LineSpec.Proofs.Tree.Making
/-!
# The workspace that rendering leaves

Rendering into a directory leaves the workspace with the file of each item that has a content, and
with the directories above it; an item that has none changes nothing. The items are taken in their
order, so where several of them name one file the last one counts. This holds to the last item where
no access is refused and each content can be encoded, and up to the item that rendering breaks off
at elsewhere (`render_leaves`). Without a directory the workspace stays as it is.
-/

namespace LineSpec.Command

open Session

variable {w w' : Workspace} {reading : Reading Misfit} {dir : Path} {t : Item × Text}
  {ts : List (Item × Text)} {texts : List Text} {ok : Bool} {done : List Bool} {cause : Break}

/-! ## Items -/

/-- The octets that an item asks for, if it has a content and this can be encoded. -/
def octetsOf (reading : Reading Misfit) (item : Item) : Option (List UInt8) :=
  (item.body.render reading.resolve).toOption.bind fun content => (Text.encode content).toOption

/-- The workspace with the file that an item names below a directory, and with the directories above
it; the same workspace if there is nothing to put there. -/
def rendered (reading : Reading Misfit) (dir : Path) (w : Workspace) (t : Item × Text) :
    Workspace :=
  match octetsOf reading t.1 with
  | some octets => w.withFile (dir.child t.2) octets
  | none => w

theorem DealsWith.workspace_eq_rendered (h : DealsWith reading (some dir) w t texts ok w') :
    w' = rendered reading dir w t := by
  cases h with
  | skipped hskip => simp [rendered, octetsOf, hskip, Except.toOption]
  | unresolved he => simp [rendered, octetsOf, he, Except.toOption]
  | printed hout => cases hout
  | written hout hcontent hencode hdirs hwrite =>
    obtain rfl := Option.some.inj hout
    rw [Workspace.write_ensureDirs_eq_ok hdirs hwrite]
    simp [rendered, octetsOf, hcontent, hencode, Except.toOption]

theorem DealsWith.workspace_eq (h : DealsWith reading none w t texts ok w') : w' = w := by
  cases h with
  | skipped | unresolved | printed => rfl
  | written hout => cases hout

theorem StopsAt.workspace_eq (h : StopsAt reading none w t texts cause w') : w' = w := by
  cases h with
  | refused | unprintable => rfl
  | noDirectory hout | noFile hout | unencodable hout => cases hout

/-- Where an item breaks rendering off, something is put only where its path, or one above it,
leads. -/
theorem StopsAt.grows (h : StopsAt reading (some dir) w t texts cause w') :
    w.Grows (·.IsAbove (dir.child t.2)) w' := by
  have hmakes : ∀ {w₁ : Workspace} {r : Except AccessError Unit},
      w.ensureDirs (dir.child t.2).parent = (w₁, r) → w.Grows (·.IsAbove (dir.child t.2)) w₁ := by
    intro w₁ r hdirs
    have hgrows := w.grows_ensureDirs (dir.child t.2).parent
    rw [hdirs] at hgrows
    exact hgrows.mono fun q hq => hq.trans (Path.parent_isAbove _)
  have hputs : ∀ {w₁ w₂ : Workspace} {octets : List UInt8} {r : Except AccessError Unit},
      w.ensureDirs (dir.child t.2).parent = (w₁, .ok ()) →
      w₁.write (dir.child t.2) octets = (w₂, r) → w.Grows (·.IsAbove (dir.child t.2)) w₂ := by
    intro w₁ w₂ octets r hdirs hwrite
    have hgrows := w₁.grows_write (dir.child t.2) octets
    rw [hwrite] at hgrows
    exact (hmakes hdirs).trans hgrows
  cases h with
  | refused => exact .refl
  | unprintable hout => cases hout
  | noDirectory hout _ hdirs =>
    obtain rfl := Option.some.inj hout
    exact hmakes hdirs
  | noFile hout _ hdirs hwrite =>
    obtain rfl := Option.some.inj hout
    exact hputs hdirs hwrite
  | unencodable hout _ _ hdirs hwrite =>
    obtain rfl := Option.some.inj hout
    exact hputs hdirs hwrite

/-! ## All items -/

theorem DealsWithAll.workspace_eq_foldl (h : DealsWithAll reading (some dir) w ts texts done w') :
    w' = ts.foldl (rendered reading dir) w := by
  induction h with
  | nil => rfl
  | cons hitem _ ih => rw [ih, List.foldl_cons, hitem.workspace_eq_rendered]

theorem DealsWithAll.workspace_eq (h : DealsWithAll reading none w ts texts done w') : w' = w := by
  induction h with
  | nil => rfl
  | cons hitem _ ih => rw [ih, hitem.workspace_eq]

/-! ## The whole run -/

/-- What rendering items into a directory does with the workspace `w`. -/
structure Answer.PutsOut (a : Answer) (reading : Reading Misfit) (dir : Path) (w : Workspace)
    (ts : List (Item × Text)) : Prop where
  /-- Where it is not broken off, each item leaves what it asks for, one after the other. -/
  complete : a.cause = none → a.workspace = ts.foldl (rendered reading dir) w
  /-- It is not broken off where no access is refused and each item settles. -/
  cause : (∀ e, a.cause ≠ some (.access e)) → (∀ t ∈ ts, Settles reading t.1) → a.cause = none
  /-- Where it is broken off, the items before one of them leave what they ask for, and then
  something is put only where the path of that one, or one above it, leads. -/
  broken : ∀ cause, a.cause = some cause → ∃ before t after, ts = before ++ t :: after ∧
    (before.foldl (rendered reading dir) w).Grows (·.IsAbove (dir.child t.2)) a.workspace

theorem Answer.PutsOut.with_events {a : Answer} (h : a.PutsOut reading dir w ts)
    (events : List Event) : { a with events }.PutsOut reading dir w ts :=
  ⟨h.complete, h.cause, h.broken⟩

theorem workspace_render_of_not_loads {r : RenderRequest}
    (h : ∀ reading d, ¬r.Loads w reading d) : (answer (render r) w).workspace = w := by
  have hmoves : Moves Eq (render r) { workspace := w } :=
    moves_render fun reading d hloads => absurd hloads (h reading d)
  exact (workspace_answer hmoves).symm

section
variable {r : RenderRequest} {d : Document}

theorem workspace_render_of_not_out (hout : r.out = none) :
    (answer (render r) w).workspace = w := by
  -- only a document that is loaded has items to deal with
  by_cases h : ∀ reading d, ¬r.Loads w reading d
  · exact workspace_render_of_not_loads h
  simp only [not_forall, not_not] at h
  obtain ⟨reading, d, hloads⟩ := h
  have hitems := ofItems_render hloads (by rw [hout]; nofun)
  rw [hout] at hitems
  cases hcause : (answer (render r) w).cause with
  | none =>
    obtain ⟨texts, done, hall, -⟩ := hitems.dealt hcause
    exact hall.workspace_eq
  | some cause =>
    obtain ⟨texts, ⟨-, hbefore, hstops⟩, -⟩ := hitems.broken cause hcause
    rw [hstops.workspace_eq, hbefore.workspace_eq]

theorem putsOut_render (hloads : r.Loads w reading d) (hout : r.out = some dir)
    (hdir : dir.Plain) : (answer (render r) w).PutsOut reading dir w (d.declaring r.param) := by
  have hitems := ofItems_render hloads (by rw [hout]; rintro _ ⟨⟩; exact hdir)
  rw [hout] at hitems
  refine ⟨fun hnone => ?_, fun haccess hsettles => ?_, fun cause hcause => ?_⟩
  · obtain ⟨texts, done, hall, -⟩ := hitems.dealt hnone
    exact hall.workspace_eq_foldl
  · cases hcause : (answer (render r) w).cause with
    | none => rfl
    | some cause =>
      obtain ⟨-, e, -, rfl⟩ := hitems.refused hsettles cause hcause
      exact absurd hcause (haccess e)
  · obtain ⟨texts, ⟨hts, hbefore, hstops⟩, -⟩ := hitems.broken cause hcause
    refine ⟨_, _, _, hts, ?_⟩
    rw [← hbefore.workspace_eq_foldl]
    exact hstops.grows

end

/-- Rendering without a directory, or a specification that cannot be loaded, leaves the workspace as
it is. Rendering a document into a directory leaves it with what each of the items asks for, in
their order, unless it is broken off. -/
theorem render_leaves {r : RenderRequest} {args : List String} {verbose : Bool}
    (hargs : Request.ofArguments w args = .ok (.render r, verbose)) :
    (r.out = none → (run w args).workspace = w) ∧
    ((∀ reading d, ¬r.Loads w reading d) → (run w args).workspace = w) ∧
    ∀ dir reading d, r.out = some dir → r.Loads w reading d →
      (run w args).PutsOut reading dir w (d.declaring r.param) := by
  have hr : (Request.render r).Plain := Request.plain_of_ofArguments hargs
  obtain ⟨events, hrun⟩ := run_of_request hargs
  rw [hrun, perform]
  refine ⟨workspace_render_of_not_out, workspace_render_of_not_loads, ?_⟩
  intro dir reading d hout hloads
  exact (putsOut_render hloads hout (hr.2 dir hout)).with_events events

theorem render_leaves_skip : ∃ (reading : Reading Misfit) (d : Document),
    (run skipping ["render", "s.txt", "--out", "out"]).workspace =
      (d.declaring "file").foldl (rendered reading ⟨.relative, ["out"]⟩) skipping ∧
    (d.declaring "file").length = 2 ∧
    (run skipping ["render", "s.txt", "--out", "out"]).workspace.tree.get?
      (["out", "a"] : Location) = some (.file (Text.Utf8.encode "old\n".toList)) ∧
    (run skipping ["render", "s.txt", "--out", "out"]).workspace.tree.get?
      (["out", "b"] : Location) = some (.file (Text.Utf8.encode "y\n".toList)) := by
  have hargs : Request.ofArguments skipping ["render", "s.txt", "--out", "out"] =
      .ok (.render { specFile := ⟨.relative, ["s.txt"]⟩, out := some ⟨.relative, ["out"]⟩ },
        false) := by
    decide +kernel
  have hcause : (run skipping ["render", "s.txt", "--out", "out"]).cause = none := by
    decide +kernel
  obtain ⟨-, -, hputsOut⟩ := render_leaves hargs
  refine ⟨_, _, (hputsOut _ _ _ rfl loads_skipping).complete hcause, ?_, ?_, ?_⟩
  · decide +kernel
  · decide +kernel
  · decide +kernel

/-- A workspace with a specification of two files, with variables one of which is a surrogate, and
with an older version of the first file. -/
def surrogate : Workspace where
  tree.entries := [(["out"], .dir), (["out", "a"], .file (Text.Utf8.encode "old\n".toList)),
    (["s.txt"],
      .file (Text.Utf8.encode "## file: a\n$\x7bx\x7d\n## file: b\ny\n".toList)),
    (["v.yml"], .file (Text.Utf8.encode "x: \"\\ud800\"\n".toList))]
  tree.nodup := show List.Nodup [[("out" : Text)], ["out", "a"], ["s.txt"], ["v.yml"]] by decide

/-- No access is refused, but a content that cannot be encoded breaks rendering off. The file of its
item is emptied, and the item after it is not rendered. -/
theorem render_empties :
    (run surrogate ["render", "s.txt", "--vars-file", "v.yml", "--out", "out"]).cause =
      some (.unencodable ⟨0, 1, ⟨0xD800, by decide⟩⟩) ∧
    (run surrogate ["render", "s.txt", "--vars-file", "v.yml", "--out", "out"]).workspace.tree.get?
      (["out", "a"] : Location) = some (.file []) ∧
    (run surrogate ["render", "s.txt", "--vars-file", "v.yml", "--out", "out"]).workspace.tree.get?
      (["out", "b"] : Location) = none ∧
    ∃ reading d,
      RenderRequest.Loads
        { specFile := ⟨.relative, ["s.txt"]⟩, varsFile := some ⟨.relative, ["v.yml"]⟩,
          out := some ⟨.relative, ["out"]⟩ } surrogate reading d ∧
      (d.declaring "file").map (fun t => (t.2, t.1.body.render reading.resolve)) =
        [(("a" : Text), .ok ([⟨0xD800, by decide⟩, '\n'] : Text)),
          (("b" : Text), .ok ("y\n" : Text))] := by
  refine ⟨by decide +kernel, by decide +kernel, by decide +kernel,
    Settings.Options.reading ⟨.text "..", .text "##", .text "$\x7b", .text "\x7d", .bool false⟩
      [("x", [⟨0xD800, by decide⟩])],
    ⟨[⟨[("file", "a")], [.literal "$\x7bx\x7d" 2], 1⟩, ⟨[("file", "b")], [.literal "y" 4], 3⟩],
      some "s.txt"⟩, ?_, ?_⟩
  · exact ⟨{}, _, _, rfl, by decide +kernel, rfl, rfl, by decide +kernel⟩
  · decide +kernel

end LineSpec.Command
