import LineSpec.Proofs.Check.Plain
import LineSpec.Proofs.Command.Arguments
import LineSpec.Proofs.Command.Printing
import LineSpec.Proofs.Command.Setup
import LineSpec.Proofs.Match.Rendering
import LineSpec.Proofs.Template.Agreement
/-!
# What an inspection lists

A specification that is inspected is shown item by item, and below each item the names of its
variables are listed: each of them once, where it first appears (`ListsOnce`). No line of a file
breaks that off, because the file holds no surrogates, and a document has a skip only where a line
of the file is the skip marker.

An item that has neither skips nor malformed placeholders can be rendered exactly when each name in
this list has a value (`lists_what_is_needed`).
-/

namespace LineSpec

variable {c : Conventions}

/-! ## Listing names once -/

/-- The texts `names` are those of `all`, each of them once, in the order in which they first
appear. -/
structure ListsOnce (all names : List Text) : Prop where
  mem_iff : ∀ n, n ∈ names ↔ n ∈ all
  inOrder : names.Pairwise fun n m => all.idxOf n < all.idxOf m

/-- A further name is listed if it did not appear before. -/
theorem ListsOnce.step {all seen : List Text} (h : ListsOnce all seen) (n : Text) :
    ListsOnce (all ++ [n]) (if seen.contains n then seen else seen ++ [n]) := by
  -- the names so far appear where they did
  have hold : seen.Pairwise fun m m' => (all ++ [n]).idxOf m < (all ++ [n]).idxOf m' := by
    refine h.inOrder.imp_of_mem fun hm hm' hlt => ?_
    rwa [List.idxOf_append_of_mem ((h.mem_iff _).1 hm),
      List.idxOf_append_of_mem ((h.mem_iff _).1 hm')]
  split
  next hseen =>
    rw [List.contains_iff_mem] at hseen
    refine ⟨fun m => ?_, hold⟩
    rw [List.mem_append, List.mem_singleton, h.mem_iff]
    exact ⟨Or.inl, fun hm => hm.elim id fun heq => heq ▸ (h.mem_iff n).1 hseen⟩
  next hnew =>
    rw [List.contains_iff_mem, h.mem_iff] at hnew
    refine ⟨fun m => ?_, List.pairwise_append.2 ⟨hold, List.pairwise_singleton _ _, ?_⟩⟩
    · rw [List.mem_append, List.mem_append, h.mem_iff]
    · intro m hm m' hm'
      obtain rfl := List.mem_singleton.1 hm'
      rw [List.idxOf_append_of_mem ((h.mem_iff m).1 hm), List.idxOf_append_of_notMem hnew]
      exact Nat.lt_add_right _ (List.idxOf_lt_length_of_mem ((h.mem_iff m).1 hm))

open Command (addNew)

theorem addNew_addNew (seen names names' : List Text) :
    addNew (addNew seen names) names' = addNew seen (names ++ names') :=
  List.foldl_append.symm

theorem ListsOnce.addNew {all seen : List Text} (h : ListsOnce all seen) (names : List Text) :
    ListsOnce (all ++ names) (addNew seen names) := by
  induction names generalizing all seen with
  | nil => rwa [List.append_nil]
  | cons n names ih =>
    have hrest := ih (h.step n)
    rwa [List.append_assoc] at hrest

/-! ## The names of an item -/

/-- The names in an entry. None are listed where a placeholder is malformed. -/
def Entry.names (c : Conventions) : Entry → List Text
  | .literal text _ => (Template.placeholders c text).toOption.getD []
  | .skip _ => []

/-- The names in a body, as often as they appear. -/
def Body.names (c : Conventions) (body : Body) : List Text := body.flatMap (Entry.names c)

/-- The names of the variables of an item, as they are listed. -/
def Item.variableNames (c : Conventions) (item : Item) : List Text := addNew [] (item.body.names c)

theorem Item.listsOnce_variableNames (c : Conventions) (item : Item) :
    ListsOnce (item.body.names c) (item.variableNames c) := by
  have hnone : ListsOnce [] [] := ⟨fun _ => Iff.rfl, .nil⟩
  exact hnone.addNew _

/-- The names in plain lines are plain. -/
theorem Body.plain_names {body : Body} (hbody : ∀ e ∈ body, e.text.Plain) :
    ∀ n ∈ body.names c, n.Plain := by
  refine List.forall_mem_flatMap.2 fun e he => ?_
  cases e with
  | skip line => exact List.forall_mem_nil _
  | literal text line =>
    obtain ⟨hplain, -⟩ := Template.plain_of_placeholders (c := c) (hbody _ he)
    rw [Entry.names]
    cases hnames : Template.placeholders c text with
    | ok names => exact hplain names hnames
    | error e => exact List.forall_mem_nil _

/-- A literal without malformed placeholders. -/
def Entry.IsSound (c : Conventions) (e : Entry) : Prop :=
  ∃ text line names, e = .literal text line ∧ Template.placeholders c text = .ok names

/-- The line of such a literal resolves exactly when its names have values. -/
theorem Entry.IsSound.exists_resolve_iff {e : Entry} (h : e.IsSound c) (vars : Bindings Text) :
    (∃ text line l, e = .literal text line ∧ c.resolve vars text = .ok l) ↔
      ∀ n ∈ e.names c, (vars.get? n).isSome := by
  obtain ⟨text, line, names, rfl, hnames⟩ := h
  obtain ⟨_, _, hfinds⟩ := Template.exists_finds c text
  have hfilled := hfinds.agrees.filled vars
  have hlisted : Entry.names c (.literal text line) = names := by
    rw [Entry.names, hnames]
    rfl
  rw [hlisted]
  constructor
  · rintro ⟨_, _, l, heq, hl⟩
    obtain ⟨rfl, rfl⟩ := Entry.literal.inj heq
    obtain ⟨names', hnames', hbound⟩ := hfilled.1 ⟨l, hl⟩
    obtain rfl := Except.ok.inj (hnames.symm.trans hnames')
    exact hbound
  · intro hbound
    obtain ⟨l, hl⟩ := hfilled.2 ⟨names, hnames, hbound⟩
    exact ⟨text, line, l, rfl, hl⟩

/-- Where no literal has a malformed placeholder and there is no skip, an item has content exactly
when each of its variables has a value. -/
theorem Item.exists_render_iff {item : Item} (h : ∀ e ∈ item.body, e.IsSound c)
    (vars : Bindings Text) :
    (∃ content, item.body.render (c.resolve vars) = .ok content) ↔
      ∀ n ∈ item.variableNames c, (vars.get? n).isSome := by
  have hlines : (∃ content, item.body.render (c.resolve vars) = .ok content) ↔
      ∃ ls, item.body.resolved (c.resolve vars) = .ok ls := by
    simp [Body.render, map_eq_ok_iff]
  rw [hlines, Body.exists_resolved_eq_ok_iff]
  simp only [(item.listsOnce_variableNames c).mem_iff, Body.names, List.forall_mem_flatMap]
  exact forall₂_congr fun e he => (h e he).exists_resolve_iff vars

namespace Command

open Session
open Settings (Options)

/-! ## What is shown -/

/-- The lines that show an entry. A malformed placeholder is told below its literal. -/
def entryLines (c : Conventions) : Entry → List Text
  | .skip _ => ["    " ++ c.skip]
  | .literal text line =>
    ("    | " ++ text : Text) ::
      match Template.placeholders c text with
      | .ok _ => []
      | .error e => [s!"    ! line {line}: " ++ e.message]

/-- The line that lists names, if there are any. -/
def nameLines (names : List Text) : List Text :=
  if names.isEmpty then [] else ["    Variables: " ++ Text.join ", " names]

/-- The lines that show an item. -/
def itemLines (c : Conventions) (item : Item) : List Text :=
  ((s!"\n  Item at line {item.line}" : String) : Text) ::
    (item.params.map (fun p => "    " ++ p.1 ++ ": " ++ p.2 : Text × Text → Text) ++
      item.body.flatMap (entryLines c) ++ nameLines (item.variableNames c))

/-- The lines about a document which was read from `file`, with those that show its items if they
are to be inspected. -/
def documentLines (c : Conventions) (file : Path) (inspect : Bool) (d : Document) : List Text :=
  (s!"Parsed {d.items.length} item(s) from " ++ file.text ++ ".") ::
    if inspect then d.items.flatMap (itemLines c) else []

/-- The document of a file, read with the options that the workspace has for it. The two ends of a
placeholder are texts. -/
structure Loads (w : Workspace) (file : Path) (o : Options) (d : Document) : Prop where
  settings : ∃ s, projectSettings w = .ok s ∧ s.options none = .ok o
  opening : Options.isText o.opening
  closing : Options.isText o.closing
  document : (Survey.loadFile (o.reading []) w file).result = .ok d

/-- The answer of a command that prints the given lines and is not broken off. -/
structure Answer.Prints (a : Answer) (ts : List Text) : Prop where
  exitCode : a.exitCode = 0
  cause : a.cause = none
  shown : ∃ cs, printedLines? ts = some cs ∧ a.stdout = String.ofList cs

theorem Answer.Prints.with_events {a : Answer} {ts : List Text} (h : a.Prints ts)
    (events : List Event) : { a with events }.Prints ts :=
  ⟨h.exitCode, h.cause, h.shown⟩

/-! ## Showing it -/

variable {w : Workspace} {file : Path} {o : Options} {d : Document}

theorem placeholders_eq (hopening : Options.isText o.opening) (hclosing : Options.isText o.closing)
    (text : Text) :
    o.placeholders text = (Template.placeholders o.conventions text).mapError .inl := by
  have hmisfit : o.misfitIn? text = none := by
    simp [Options.misfitIn?, hopening, hclosing]
  rw [Options.placeholders, hmisfit]

/-- A document has a skip only if the skip marker is a text, and one that can be printed. -/
theorem Loads.skip_eq (h : Loads w file o d) {item : Item} (hitem : item ∈ d.items) {line : Int}
    (hskip : .skip line ∈ item.body) :
    o.skip = .text o.conventions.skip ∧ o.conventions.skip.Plain := by
  obtain ⟨cs, hparse⟩ := Survey.exists_parse_of_loadFile h.document
  have hline := Document.skip_mem_lines_of_parse hparse hitem hskip
  refine ⟨?_, (Text.plain_ofChars cs).of_subset (Text.subset_of_mem_lines hline)⟩
  -- a line feed would stand for a marker that is no text
  have hfeed := Text.lineFeed_not_mem_of_mem_lines hline
  rcases Options.markerText_cases o.skip "\n" with
    htext | (hother : o.conventions.skip = "\n")
  · exact htext
  · rw [hother] at hfeed
    exact absurd (by decide) hfeed

section
variable (hopening : Options.isText o.opening) (hclosing : Options.isText o.closing)
include hopening hclosing

/-- Showing a body adds the names in it to those before it. -/
theorem shows_showBody {body : Body} (hbody : ∀ e ∈ body, e.text.Plain)
    (hskip : ∀ line, .skip line ∈ body →
      o.skip = .text o.conventions.skip ∧ o.conventions.skip.Plain) (seen : List Text) :
    Shows (showBody o seen body) (addNew seen (body.names o.conventions))
      (body.flatMap (entryLines o.conventions)) := by
  induction body generalizing seen with
  | nil => exact shows_pure seen
  | cons e body ih =>
    obtain ⟨he, hrest⟩ := List.forall_mem_cons.1 hbody
    have hbelow := ih hrest fun line hline => hskip line (List.mem_cons_of_mem _ hline)
    cases e with
    | skip line =>
      obtain ⟨hmarker, hplain⟩ := hskip line List.mem_cons_self
      rw [showBody, hmarker]
      exact (shows_printLine ((Text.plain_ofString _).append hplain)).bind (hbelow seen)
    | literal text line =>
      obtain ⟨-, herror⟩ := Template.plain_of_placeholders (c := o.conventions) he
      have hline := shows_printLine ((Text.plain_ofString "    | ").append he)
      rw [Body.names, List.flatMap_cons, List.flatMap_cons, ← addNew_addNew, showBody,
        placeholders_eq hopening hclosing, Entry.names, entryLines]
      cases hnames : Template.placeholders o.conventions text with
      | ok names => exact hline.bind (hbelow (addNew seen names))
      | error e =>
        have hmessage := shows_printLine
          ((Text.plain_ofString s!"    ! line {line}: ").append (herror e hnames))
        exact hline.bind (hmessage.bind (hbelow seen))

theorem shows_showItem {item : Item} (hitem : item.Plain)
    (hskip : ∀ line, .skip line ∈ item.body →
      o.skip = .text o.conventions.skip ∧ o.conventions.skip.Plain) :
    Shows (showItem o item) () (itemLines o.conventions item) := by
  have hstring := Text.plain_ofString
  have hparams : ∀ p ∈ item.params, (("    " ++ p.1 ++ ": " ++ p.2 : Text)).Plain := by
    intro p hp
    obtain ⟨hkey, hvalue⟩ := hitem.params p hp
    exact (((hstring _).append hkey).append (hstring _)).append hvalue
  rw [showItem, itemLines, List.append_assoc, List.map_eq_flatMap]
  refine (shows_printLine (hstring _)).bind ((shows_forIn fun p hp => ?_).bind ?_)
  · exact shows_printLine (hparams p hp)
  refine (shows_showBody hopening hclosing hitem.body hskip []).bind ?_
  change Shows (if !(item.variableNames o.conventions).isEmpty then _ else _) () _
  rw [nameLines]
  cases hnames : (item.variableNames o.conventions).isEmpty with
  | true => exact shows_pure ()
  | false =>
    refine shows_printLine ((hstring _).append (Text.plain_join (hstring _) fun n hn => ?_))
    exact Body.plain_names hitem.body n
      (((item.listsOnce_variableNames o.conventions).mem_iff n).1 hn)

end

/-- Shows how many items a document has, and the items if they are to be inspected. -/
def showDocument (o : Settings.Options) (file : Path) (inspect : Bool) (d : Document) :
    Session Unit := do
  printLine (s!"Parsed {d.items.length} item(s) from " ++ file.text ++ ".")
  if inspect then
    for item in d.items do
      showItem o item

/-- Showing a document that is loaded from a plain path prints all of its lines. -/
theorem Loads.shows_showDocument (h : Loads w file o d) (hfile : file.Plain) (inspect : Bool) :
    Shows (showDocument o file inspect d) () (documentLines o.conventions file inspect d) := by
  obtain ⟨cs, hparse⟩ := Survey.exists_parse_of_loadFile h.document
  have hitems := Document.plain_of_parse (Text.plain_ofChars cs) hparse
  have hheader := shows_printLine
    (((Text.plain_ofString s!"Parsed {d.items.length} item(s) from ").append hfile.text).append
      (Text.plain_ofString "."))
  refine hheader.bind ?_
  cases inspect with
  | false => exact shows_pure ()
  | true =>
    refine (shows_forIn fun item hitem => ?_).bind_pure _
    exact shows_showItem h.opening h.closing (hitems item hitem) fun line => h.skip_eq hitem

/-! ## The whole run -/

/-- Shows a document that was loaded, or tells why it was not. -/
def showLoaded (o : Settings.Options) (file : Path) (inspect : Bool) :
    Except (Survey.LoadError Misfit) Document → Session Unit
  | .error (.parse e) => do
    printLine (← reportOf (.parse e) file file.text)
    exit 1
  | .error e =>
    match Break.ofLoad e with
    | some cause => breakOff cause
    | none => exit 1
  | .ok d => showDocument o file inspect d

theorem exec_parse_of_options {s : Settings} (hs : projectSettings w = .ok s)
    (ho : s.options none = .ok o) (file : Path) (inspect : Bool) :
    exec (parse file inspect) { workspace := w } =
      exec (showLoaded o file inspect (Survey.loadFile (o.reading []) w file).result)
        { workspace := w, events := (Survey.loadFile (o.reading []) w file).events } := by
  rw [parse, exec_bind_ok (exec_settingsOrFail_ok hs), exec_bind_ok (exec_optionsOrFail_ok ho),
    exec_bind_ok exec_workspace, exec_bind_ok (exec_noted _)]
  rcases (Survey.loadFile (o.reading []) w file).result with (e | e | fault | m) | d <;> rfl

theorem Loads.prints_parse (h : Loads w file o d) (hfile : file.Plain) (inspect : Bool) :
    (answer (parse file inspect) w).Prints (documentLines o.conventions file inspect d) := by
  obtain ⟨s, hs, ho⟩ := h.settings
  have hrun := exec_parse_of_options hs ho file inspect
  rw [h.document] at hrun
  obtain ⟨a', hshow⟩ := h.shows_showDocument hfile inspect
    { workspace := w, events := (Survey.loadFile (o.reading []) w file).events }
  obtain ⟨cs, hcs, rfl⟩ := hshow.shown
  rw [answer_of_exec (hrun.trans hshow.exec)]
  exact ⟨rfl, rfl, cs, hcs, by simp [Answer.ended]⟩

/-- What is listed is what is needed. Listing the names of a line and filling in their values agree,
whether or not the line has a malformed placeholder. In an item each name is listed once, where it
first appears; without skips and malformed placeholders, the item has content exactly when each of
the names that are listed has a value. An inspection shows these names for each item. -/
theorem lists_what_is_needed :
    (∀ c text, (∃ names stop, Template.Finds c text names stop) ∧
      ∀ names stop, Template.Finds c text names stop → Template.Agrees c text names stop) ∧
    (∀ c (item : Item), ListsOnce (item.body.names c) (item.variableNames c) ∧
      ((∀ e ∈ item.body, e.IsSound c) → ∀ vars : Bindings Text,
        (∃ content, item.body.render (c.resolve vars) = .ok content) ↔
          ∀ n ∈ item.variableNames c, (vars.get? n).isSome)) ∧
    ∀ w args verbose file o d, Request.ofArguments w args = .ok (.parse file true, verbose) →
      Loads w file o d → (run w args).Prints (documentLines o.conventions file true d) := by
  refine ⟨fun c text => ⟨Template.exists_finds c text, fun names stop h => h.agrees⟩,
    fun c item => ⟨item.listsOnce_variableNames c, fun h => item.exists_render_iff h⟩, ?_⟩
  intro w args verbose file o d hargs hloads
  have hfile : file.Plain := Request.plain_of_ofArguments hargs
  obtain ⟨events, hrun⟩ := run_of_request hargs
  rw [hrun]
  exact (hloads.prints_parse hfile true).with_events events

/-- A workspace with a specification of one file, in which a variable appears twice. -/
def repeating : Workspace where
  tree.entries :=
    [(["s.txt"], .file (Text.Utf8.encode "## file: a\n$\x7bx\x7d/$\x7by\x7d\n$\x7bx\x7d\n".toList))]
  tree.nodup := show List.Nodup [[("s.txt" : Text)]] by decide

theorem lists_what_is_needed_repeating :
    let vars : Bindings Text := [("x", "1")]
    let body : Body := [.literal "$\x7bx\x7d/$\x7by\x7d" 2, .literal "$\x7bx\x7d" 3]
    let shown := "Parsed 1 item(s) from s.txt.\n\n  Item at line 1\n    file: a\n" ++
      "    | $\x7bx\x7d/$\x7by\x7d\n    | $\x7bx\x7d\n    Variables: x, y\n"
    Template.substitute {} (Assoc.get? []) "$\x7bx\x7d/$\x7b" = .error (.undefined "x") ∧
    Template.substitute {} vars.get? "$\x7bx\x7d/$\x7b" =
      .error (.malformed "$\x7bx\x7d/$\x7b" 5) ∧
    (run repeating ["parse", "s.txt", "--inspect"]).stdout = shown ∧
    (∃ content, body.render (Conventions.resolve {} (vars.bind "y" "2")) = .ok content) ∧
    ¬∃ content, body.render (Conventions.resolve {} vars) = .ok content := by
  intro vars body shown
  obtain ⟨hlines, hitems, hshown⟩ := lists_what_is_needed
  let text : Text := "$\x7bx\x7d/$\x7b"
  let afterName : Text := "/$\x7b"
  have hfinds : Template.Finds {} text ["x"] (some 5) := by
    have hopen : Text.FirstCut (Conventions.opening {}) text [] "x\x7d/$\x7b" :=
      Text.splitFirst?_eq_some_iff.1 (by decide +kernel)
    have hclose : Text.FirstCut (Conventions.closing {}) "x\x7d/$\x7b" "x" afterName :=
      Text.splitFirst?_eq_some_iff.1 (by decide +kernel)
    have hopen' : Text.FirstCut (Conventions.opening {}) afterName "/" [] :=
      Text.splitFirst?_eq_some_iff.1 (by decide +kernel)
    have hreads : Template.Reads {} text [⟨[], "x"⟩] afterName := .cons hopen hclose (.nil _)
    have hfront : text = "$\x7bx\x7d" ++ afterName := by decide
    exact .malformed hreads (by decide) fun _ => .unclosed hfront hopen' (by decide)
  have hagrees := (hlines {} text).2 _ _ hfinds
  let item : Item := ⟨[("file", "a")], body, 1⟩
  have hsound : ∀ e ∈ item.body, e.IsSound {} := by
    refine List.forall_mem_cons.2 ⟨⟨_, _, ["x", "y"], rfl, by decide +kernel⟩, ?_⟩
    exact List.forall_mem_singleton.2 ⟨_, _, ["x"], rfl, by decide +kernel⟩
  have hnames : item.variableNames {} = ["x", "y"] := by decide +kernel
  have hrenders := (hitems {} item).2 hsound
  rw [hnames] at hrenders
  let o : Options := ⟨.text "..", .text "##", .text "$\x7b", .text "\x7d", .bool false⟩
  have hargs : Request.ofArguments repeating ["parse", "s.txt", "--inspect"] =
      .ok (.parse ⟨.relative, ["s.txt"]⟩ true, false) := by
    decide +kernel
  have hloads : Loads repeating ⟨.relative, ["s.txt"]⟩ o ⟨[item], some "s.txt"⟩ :=
    ⟨⟨{}, rfl, rfl⟩, rfl, rfl, by decide +kernel⟩
  have hprinted : printedLines? (documentLines o.conventions ⟨.relative, ["s.txt"]⟩ true
      ⟨[item], some "s.txt"⟩) = some shown.toList := by
    decide +kernel
  obtain ⟨cs, hcs, hstdout⟩ := (hshown _ _ _ _ _ _ hargs hloads).shown
  refine ⟨(hagrees.undefined [] "x").2 ⟨[], [], rfl, by decide, rfl⟩,
    (hagrees.malformed vars _ _).2 ⟨hagrees.listed, by decide⟩, ?_, ?_, ?_⟩
  · rw [hstdout, ← Option.some.inj (hprinted.symm.trans hcs), String.ofList_toList]
  · exact (hrenders _).2 (by decide)
  · exact fun h => absurd ((hrenders vars).1 h) (by decide)

end Command

end LineSpec
