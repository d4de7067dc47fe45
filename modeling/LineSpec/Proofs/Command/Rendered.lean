import LineSpec.Proofs.Check.Success
import LineSpec.Proofs.Command.Render
import LineSpec.Proofs.Match.Rendering
import LineSpec.Proofs.Text.Encoding
import LineSpec.Proofs.Tree.Keeping
/-!
# Checking what was rendered

When rendering into a directory succeeds, the file of each item holds the content that the item asks
for, provided that no two items lead to the same file: the writes of later items and the directories
made for them leave it as it is (`Workspace.Keeps`). What was written is read back line by line as
long as the lines hold no line ends of their own, so a check of the same document finds nothing
wrong, even where nothing may follow the lines of an item (`check_rendered`).

An item can also be about a device, which takes the content and keeps none of it, or about a file
that may not be read. There the check has something to say
(`not_check_rendered_onto_device`).
-/

namespace LineSpec

/-! ## One file -/

/-- The file at `target` holds the content that a body asks for. -/
def Check.Holds {ε : Type} (reading : Reading ε) (w : Workspace) (body : Body) (target : Path) :
    Prop :=
  ∃ content octets, body.render reading.resolve = .ok content ∧
    Text.encode content = .ok octets ∧ w.read target = .ok octets

namespace Check

variable {ε : Type} {reading : Reading ε} {w : Workspace} {body : Body} {target : Path}

/-- A file that was written without carriage returns is read in the chunks of its text. -/
theorem ofBytes_of_encode {t : Text} {octets : List UInt8} (h : Text.encode t = .ok octets)
    (hreturn : ('\r' : CodePoint) ∉ t) : Text.Feed.ofBytes octets = ⟨Text.cut t, none⟩ := by
  obtain ⟨cs, rfl, rfl⟩ := Text.encode_eq_ok_iff.1 h
  rw [Text.ofChar_mem_ofChars_iff] at hreturn
  rw [Text.Feed.ofBytes_encode, Text.unifyNewlines_eq_self hreturn]

/-- A file that holds what a body asks for is found to match, to its end. -/
theorem item_eq_none_of_holds (h : Holds reading w body target)
    (hlines : ∀ text line l, .literal text line ∈ body → reading.resolve text = .ok l →
      ('\n' : CodePoint) ∉ l ∧ ('\r' : CodePoint) ∉ l) :
    (item { reading with strictEnd := true } w body target).result = .ok none := by
  obtain ⟨content, octets, hrender, hencode, hread⟩ := h
  obtain ⟨ls, hls, rfl⟩ := map_eq_ok_iff.1 hrender
  have hclean : ∀ l ∈ ls, ('\n' : CodePoint) ∉ l ∧ ('\r' : CodePoint) ∉ l := by
    intro l hl
    obtain ⟨text, line, hmem, ht⟩ := (Body.mem_resolved_iff hls).1 hl
    exact hlines text line l hmem ht
  have hreturn : ('\r' : CodePoint) ∉ ls.flatMap (· ++ ("\n" : Text)) := by
    intro hmem
    obtain ⟨l, hl, hmem⟩ := List.mem_flatMap.1 hmem
    rcases List.mem_append.1 hmem with hmem | hmem
    · exact (hclean l hl).2 hmem
    · exact absurd hmem (by decide)
  have hmatched := ((Match.runFrom_rendered hls 0).2 fun l hl =>
    ⟨(hclean l hl).1, fun hlast => (hclean l hl).2 (List.mem_of_getLast? hlast)⟩).1
  rw [item, hread]
  dsimp only
  rw [ofBytes_of_encode hencode hreturn, problemOf_eq_none_iff]
  exact ⟨hmatched, .inl rfl⟩

/-- Without problems, the check of a document reports its items and no failure. -/
theorem document_eq_ok_of_items {d : Document} {root : Path} {param : Text} {jobs : Int}
    (h : ∀ t ∈ d.declaring param, (item reading w t.1.body (root.child t.2)).result = .ok none) :
    (document reading w d root param jobs).result = .ok ⟨(d.declaring param).length, []⟩ := by
  rw [document_eq_ok_iff]
  refine ⟨fun t ht => ⟨none, h t ht⟩, ?_⟩
  have hnone : ∀ t ∈ d.declaring param, problem? reading w root t = none := fun t ht =>
    problem?_eq (h t ht)
  have hfailures : failuresOf (nameOf d) (d.declaring param)
      ((d.declaring param).map (problem? reading w root)) = [] := by
    rw [failuresOf, List.filterMap_eq_nil_iff]
    rintro ⟨t, p⟩ hmem
    obtain ⟨t', ht', rfl⟩ := List.mem_map.1 (List.of_mem_zip hmem).2
    rw [hnone t' ht']
    rfl
  rw [ofItems, total_map_ofItem, hfailures]

end Check

namespace Command

open Session

variable {a a' : Answer} {reading : Reading Misfit} {out : Path}

/-! ## The files of all items -/

theorem workspace_eq_of_printLine {t : Text} (h : exec (printLine t) a = (.ok (), a')) :
    a'.workspace = a.workspace := by
  have hmoves : Moves Eq (printLine t) a := moves_printLine t
  exact ((moves_iff_of_exec h).1 hmoves).1.workspace.symm

/-- Writing below a directory leaves the content at its path, and all else as it is. -/
theorem writeBelow_eq_ok {name content : Text}
    (h : exec (writeBelow out name content) a = (.ok (), a')) :
    ∃ octets, Text.encode content = .ok octets ∧
      a'.workspace.Received (out.child name) octets ∧
      a.workspace.Keeps (· = a.workspace.resolved (out.child name)) a'.workspace := by
  rw [writeBelow] at h
  obtain ⟨⟨⟩, a₁, hdirs, h⟩ := exec_bind_eq_ok_iff.1 h
  obtain ⟨hdirs, -⟩ := exec_act_eq_ok_iff.1 hdirs
  have hkeeps : a.workspace.Keeps (fun _ => False) a₁.workspace := by
    have hkeeps := a.workspace.keeps_ensureDirs (out.child name).parent
    rwa [hdirs] at hkeeps
  have hresolved := Workspace.resolved_eq hkeeps.home (out.child name)
  split at h
  next octets hencode =>
    obtain ⟨⟨⟩, a₂, hwrite, h⟩ := exec_bind_eq_ok_iff.1 h
    obtain ⟨hwrite, -⟩ := exec_act_eq_ok_iff.1 hwrite
    have hkept := Workspace.keeps_write hwrite
    rw [hresolved] at hkept
    rw [workspace_eq_of_printLine h]
    exact ⟨octets, hencode, Workspace.received_of_write hwrite,
      IsTrans.trans _ _ _ (hkeeps.mono fun _ => False.elim) hkept⟩
  next e hencode => exact absurd h (Ends.bind fun _ => ends_breakOff _).exec_ne_ok

/-- Where an item is rendered, its path has received what the item asks for, and all else is as
before. -/
theorem renderItem_eq_ok {item : Item} {name : Text}
    (h : exec (renderItem reading (some out) item name) a = (.ok true, a')) :
    ∃ content octets, item.body.render reading.resolve = .ok content ∧
      Text.encode content = .ok octets ∧
      a'.workspace.Received (out.child name) octets ∧
      a.workspace.Keeps (· = a.workspace.resolved (out.child name)) a'.workspace := by
  have hreport : ∀ text : Text,
      exec (do printLine text; return false : Session Bool) a ≠ (.ok true, a') := by
    intro text htrue
    obtain ⟨-, a₁, -, htrue⟩ := exec_bind_eq_ok_iff.1 htrue
    cases congrArg Prod.fst htrue
  rw [renderItem] at h
  split at h
  · exact absurd h (hreport _)
  · exact absurd h (hreport _)
  · exact absurd h (ends_breakOff _).exec_ne_ok
  next content hcontent =>
    obtain ⟨⟨⟩, a₁, hwrite, h⟩ := exec_bind_eq_ok_iff.1 h
    obtain ⟨-, rfl⟩ := Prod.mk.inj h
    obtain ⟨octets, hencode, hreceived, hkeeps⟩ := writeBelow_eq_ok hwrite
    exact ⟨content, octets, hcontent, hencode, hreceived, hkeeps⟩

/-- Rendering items one after the other keeps all files but theirs, and leaves in these what each of
the items asks for, if their paths spell out different locations. -/
theorem holds_of_mapM_renderItem {ts : List (Item × Text)} {done : List Bool}
    (hdifferent : ts.Pairwise fun t t' =>
      a.workspace.resolved (out.child t.2) ≠ a.workspace.resolved (out.child t'.2))
    (h : exec (ts.mapM fun t => renderItem reading (some out) t.1 t.2) a = (.ok done, a'))
    (hdone : done.all id = true) :
    (∀ t ∈ ts, a'.workspace.HasFile (out.child t.2) →
      Check.Holds reading a'.workspace t.1.body (out.child t.2)) ∧
      a.workspace.Keeps (fun loc => ∃ t ∈ ts, loc = a.workspace.resolved (out.child t.2))
        a'.workspace := by
  induction ts generalizing a done with
  | nil =>
    obtain ⟨-, rfl⟩ := Prod.mk.inj h
    exact ⟨fun t ht => absurd ht List.not_mem_nil, refl _⟩
  | cons t ts ih =>
    rw [List.mapM_cons] at h
    obtain ⟨b, a₁, hitem, h⟩ := exec_bind_eq_ok_iff.1 h
    obtain ⟨bs, a₂, hrest, h⟩ := exec_bind_eq_ok_iff.1 h
    obtain ⟨hok, rfl⟩ := Prod.mk.inj h
    obtain rfl := Except.ok.inj hok
    obtain ⟨rfl, hbs⟩ := Bool.and_eq_true_iff.1 hdone
    obtain ⟨content, octets, hcontent, hencode, hreceived, hkeeps⟩ := renderItem_eq_ok hitem
    have hresolved := Workspace.resolved_eq hkeeps.home
    obtain ⟨hfirst, hdifferent⟩ := List.pairwise_cons.1 hdifferent
    simp only [← hresolved] at hdifferent
    obtain ⟨hholds, hkept⟩ := ih hdifferent hrest hbs
    -- the items after the first one leave its file as it is
    have hlast := hkept.received (p := out.child t.2) (fun ⟨t', ht', heq⟩ => ?_) hreceived
    · simp only [hresolved] at hkept
      refine ⟨List.forall_mem_cons.2 ⟨fun hfile => ?_, hholds⟩,
        IsTrans.trans _ _ _ (hkeeps.mono fun loc hloc => ⟨t, List.mem_cons_self, hloc⟩)
          (hkept.mono fun loc ⟨t', ht', hloc⟩ => ⟨t', List.mem_cons_of_mem _ ht', hloc⟩)⟩
      exact ⟨content, octets, hcontent, hencode, hlast.read_eq_ok hfile⟩
    · exact hfirst t' ht' (by rwa [← hresolved, ← hresolved])

/-! ## The whole run -/

/-- Rendering that comes to its end has loaded a document and rendered all of its items. -/
theorem render_eq_ok {r : RenderRequest} (h : exec (render r) a = (.ok (), a')) :
    ∃ reading d a₁ done, r.Loads a.workspace reading d ∧ a₁.workspace = a.workspace ∧
      exec ((d.declaring r.param).mapM fun t => renderItem reading r.out t.1 t.2) a₁ =
        (.ok done, a') ∧ done.all id = true := by
  rw [render] at h
  obtain ⟨s, a₁, hrun₁, h₁⟩ := exec_bind_eq_ok_iff.1 h
  obtain ⟨hs, rfl⟩ := exec_settingsOrFail_eq_ok_iff.1 hrun₁
  obtain ⟨vars, a₂, hrun₂, h₂⟩ := exec_bind_eq_ok_iff.1 h₁
  obtain ⟨hvars, rfl⟩ := exec_variablesOrFail_eq_ok_iff.1 hrun₂
  obtain ⟨o, a₃, hrun₃, h₃⟩ := exec_bind_eq_ok_iff.1 h₂
  obtain ⟨ho, rfl⟩ := exec_optionsOrFail_eq_ok_iff.1 hrun₃
  obtain ⟨d, a₄, hrun₄, h₄⟩ := exec_bind_eq_ok_iff.1 h₃
  obtain ⟨hd, rfl⟩ := exec_documentOrFail_eq_ok_iff.1 hrun₄
  obtain ⟨done, a₅, hitems, h₅⟩ := exec_bind_eq_ok_iff.1 h₄
  split at h₅
  · exact absurd h₅ (ends_exit 1).exec_ne_ok
  next hdone =>
    obtain ⟨-, rfl⟩ := Prod.mk.inj h₅
    refine ⟨o.reading vars, d, _, done, ⟨s, vars, o, hs, hvars, ho, rfl, hd⟩, ?_, hitems, ?_⟩
    · rfl
    · simpa using hdone

/-- When rendering into a directory ends with exit code 0, the paths of the items that declare the
parameter spell out different places, files stand there, and no resolved literal of theirs holds a
line feed or a carriage return, a check of the same document finds all items and no failure, with
file names as seen from the directory and where nothing may follow the lines of an item. -/
theorem check_rendered {w : Workspace} {args : List String} {r : RenderRequest} {verbose : Bool}
    {out : Path} (hargs : Request.ofArguments w args = .ok (.render r, verbose))
    (hout : r.out = some out) (hexit : (run w args).exitCode = 0) :
    ∃ reading d, r.Loads w reading d ∧
      (((d.declaring r.param).Pairwise fun t t' =>
          w.resolved (out.child t.2) ≠ w.resolved (out.child t'.2)) →
        (∀ t ∈ d.declaring r.param, (run w args).workspace.HasFile (out.child t.2)) →
        (∀ t ∈ d.declaring r.param, ∀ text line l, .literal text line ∈ t.1.body →
          reading.resolve text = .ok l → ('\n' : CodePoint) ∉ l ∧ ('\r' : CodePoint) ∉ l) →
        ∀ jobs, (Check.document { reading with strictEnd := true } (run w args).workspace d out
          r.param jobs).result = .ok ⟨(d.declaring r.param).length, []⟩) := by
  have hrun : run w args =
      { answer (render r) w with
        events := (answer (render r) w).events.filter (Event.isShown verbose) } := by
    rw [run, hargs]
    rfl
  rw [hrun] at hexit
  have hexec := exec_eq_ok_of_exitCode (moves_render_below hout) hexit
  obtain ⟨reading, d, a₁, done, hloads, hworkspace, hitems, hdone⟩ := render_eq_ok hexec
  refine ⟨reading, d, hloads, fun hdifferent hfiles hlines jobs => ?_⟩
  have hdifferent₁ : (d.declaring r.param).Pairwise fun t t' =>
      a₁.workspace.resolved (out.child t.2) ≠ a₁.workspace.resolved (out.child t'.2) := by
    rwa [hworkspace]
  rw [hout] at hitems
  obtain ⟨hholds, -⟩ := holds_of_mapM_renderItem hdifferent₁ hitems hdone
  rw [hrun] at hfiles ⊢
  refine Check.document_eq_ok_of_items fun t ht => ?_
  exact Check.item_eq_none_of_holds (hholds t ht (hfiles t ht)) (hlines t ht)

/-- Whether a text resolves to a line without line ends, if it resolves at all. -/
def resolvesCleanly (reading : Reading Misfit) (text : Text) : Bool :=
  match reading.resolve text with
  | .ok l => !l.contains '\n' && !l.contains '\r'
  | .error _ => true

/-- Whether the literals of items resolve to lines without line ends can be computed. -/
theorem forall_resolved_of_all {reading : Reading Misfit} {ts : List (Item × Text)}
    (h : ts.all (fun t => t.1.body.all fun e => match e with
      | .literal text _ => resolvesCleanly reading text
      | .skip _ => true) = true) :
    ∀ t ∈ ts, ∀ text line l, .literal text line ∈ t.1.body → reading.resolve text = .ok l →
      ('\n' : CodePoint) ∉ l ∧ ('\r' : CodePoint) ∉ l := by
  intro t ht text line l hmem hl
  have hclean := List.all_eq_true.1 (List.all_eq_true.1 h t ht) _ hmem
  simpa [resolvesCleanly, hl] using hclean

/-- A workspace with a specification of two files, the second of them empty. -/
def twoFiles : Workspace where
  tree.entries := [
    (["s.txt"], .file (Text.Utf8.encode "## file: a/x\nnew\n## file: e\n".toList))]
  tree.nodup := List.nodup_singleton _

theorem check_rendered_two_files : ∃ (reading : Reading Misfit) (d : Document),
    (Survey.loadFile reading twoFiles ⟨.relative, ["s.txt"]⟩).result = .ok d ∧
      (d.declaring "file").length = 2 ∧
      (Check.document { reading with strictEnd := true }
        (run twoFiles ["render", "s.txt", "--out", "out"]).workspace d ⟨.relative, ["out"]⟩
        "file" 1).result = .ok ⟨2, []⟩ := by
  have hargs : Request.ofArguments twoFiles ["render", "s.txt", "--out", "out"] =
      .ok (.render { specFile := ⟨.relative, ["s.txt"]⟩, out := some ⟨.relative, ["out"]⟩ },
        false) := by
    decide +kernel
  have hexit : (run twoFiles ["render", "s.txt", "--out", "out"]).exitCode = 0 := by
    decide +kernel
  obtain ⟨reading, d, hloads, hcheck⟩ := check_rendered hargs rfl hexit
  obtain ⟨s, vars, o, hs, hvars, ho, rfl, hd⟩ := hloads
  obtain rfl := Except.ok.inj hs
  obtain rfl := Except.ok.inj hvars
  obtain rfl := Except.ok.inj ho
  obtain rfl := Except.ok.inj (hd.symm.trans (show _ = Except.ok
    ⟨[⟨[("file", "a/x")], [.literal "new" 2], 1⟩, ⟨[("file", "e")], [], 3⟩], some "s.txt"⟩ by
      decide +kernel))
  exact ⟨_, _, hd, by decide +kernel, hcheck (by decide +kernel) (by decide +kernel)
    (forall_resolved_of_all (by decide +kernel)) 1⟩

/-- A workspace with a specification of the null device. -/
def discarding : Workspace where
  tree.entries := [(["dev"], .dir), (["dev", "null"], .device),
    (["s.txt"], .file (Text.Utf8.encode "## file: /dev/null\nx\n".toList))]
  tree.nodup := show List.Nodup [[("dev" : Text)], ["dev", "null"], ["s.txt"]] by decide

/-- A check of what was rendered can fail: a device has taken the content and kept nothing. -/
theorem not_check_rendered_onto_device : ¬∀ (w : Workspace) (args : List String)
    (r : RenderRequest) (verbose : Bool) (out : Path),
    Request.ofArguments w args = .ok (.render r, verbose) → r.out = some out →
    (run w args).exitCode = 0 → ∀ reading d, r.Loads w reading d →
      ((d.declaring r.param).Pairwise fun t t' =>
        w.resolved (out.child t.2) ≠ w.resolved (out.child t'.2)) →
      (∀ t ∈ d.declaring r.param, ∀ text line l, .literal text line ∈ t.1.body →
        reading.resolve text = .ok l → ('\n' : CodePoint) ∉ l ∧ ('\r' : CodePoint) ∉ l) →
      (Check.document { reading with strictEnd := true } (run w args).workspace d out
        r.param 1).result = .ok ⟨(d.declaring r.param).length, []⟩ := by
  intro h
  have hresult := h discarding ["render", "s.txt", "--out", "out"]
    { specFile := ⟨.relative, ["s.txt"]⟩, out := some ⟨.relative, ["out"]⟩ } false
    ⟨.relative, ["out"]⟩ (by decide +kernel) rfl (by decide +kernel)
    (Settings.Options.reading ⟨.text "..", .text "##", .text "$\x7b", .text "\x7d", .bool false⟩ [])
    ⟨[⟨[("file", "/dev/null")], [.literal "x" 2], 1⟩], some "s.txt"⟩
    ⟨{}, _, _, rfl, rfl, rfl, rfl, by decide +kernel⟩ (by decide +kernel)
    (forall_resolved_of_all (by decide +kernel))
  exact absurd hresult (by decide +kernel)

end Command

end LineSpec
