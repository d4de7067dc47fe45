import LineSpec.Proofs.Check.Plain
import LineSpec.Proofs.Command.Arguments
import LineSpec.Proofs.Command.Printing
import LineSpec.Proofs.Command.Render
/-!
# How rendering deals with items

Rendering deals with the items that declare the parameter one after the other: it puts an item out,
or tells in a line why the item has no content, and goes on to the next one (`DealsWith`). So it
deals with all of them, unless it breaks off at an item: where the workspace refuses a directory or
a file, where a content holds surrogates, or where a marker of the settings is no text (`StopsAt`).
The items after that one are not dealt with (`render_deals`).
-/

namespace LineSpec.Command

namespace Session

/-! ## Runs that print and leave a workspace -/

variable {α β : Type} {s : Session α} {f : α → Session β} {x : α} {w w' w'' : Workspace}
  {ts ts' : List Text}

/-- In the workspace `w` a run comes to the result `r`. It has printed texts and leaves the
workspace `w'`, and nothing else is other than before. -/
def Leaves (s : Session α) (w : Workspace) (r : Except (Nat ⊕ Break) α) (ts : List Text)
    (w' : Workspace) : Prop :=
  ∃ cs, printedTexts? ts = some cs ∧ ∀ a : Answer, a.workspace = w →
    exec s a = (r, { a with workspace := w', stdout := a.stdout ++ String.ofList cs })

theorem Leaves.of_exec {r : Except (Nat ⊕ Break) α}
    (h : ∀ a : Answer, a.workspace = w → exec s a = (r, { a with workspace := w' })) :
    Leaves s w r [] w' :=
  ⟨[], rfl, fun a ha => by rw [h a ha, String.ofList_nil, String.append_empty]⟩

theorem Leaves.bind {r : Except (Nat ⊕ Break) β} (h : Leaves s w (.ok x) ts w')
    (hf : Leaves (f x) w' r ts' w'') : Leaves (s >>= f) w r (ts ++ ts') w'' := by
  obtain ⟨cs, hcs, hs⟩ := h
  obtain ⟨cs', hcs', hfx⟩ := hf
  refine ⟨cs ++ cs', printedTexts?_append hcs hcs', fun a ha => ?_⟩
  rw [exec_bind_ok (hs a ha), hfx _ rfl, String.ofList_append, String.append_assoc]

theorem Leaves.bind_error {e : Nat ⊕ Break} (h : Leaves s w (.error e) ts w') :
    Leaves (s >>= f) w (.error e) ts w' := by
  obtain ⟨cs, hcs, hs⟩ := h
  exact ⟨cs, hcs, fun a ha => exec_bind_error (hs a ha)⟩

theorem leaves_pure (x : α) (w : Workspace) : Leaves (pure x : Session α) w (.ok x) [] w :=
  .of_exec fun _ ha => ha ▸ exec_pure x

theorem leaves_breakOff (cause : Break) (w : Workspace) :
    Leaves (breakOff cause : Session α) w (.error (.inr cause)) [] w :=
  .of_exec fun _ ha => ha ▸ exec_breakOff cause

theorem leaves_act_ok {g : Workspace → Workspace × Except AccessError α}
    (h : g w = (w', .ok x)) : Leaves (act g) w (.ok x) [] w' := by
  refine .of_exec fun a ha => ?_
  rw [exec_act, ha, h]
  rfl

theorem leaves_act_error {g : Workspace → Workspace × Except AccessError α} {e : AccessError}
    (h : g w = (w', .error e)) : Leaves (act g) w (.error (.inr (.access e))) [] w' := by
  refine .of_exec fun a ha => ?_
  rw [exec_act, ha, h]
  rfl

theorem leaves_print {t : Text} (w : Workspace) (h : (Text.printed t).Plain) :
    Leaves (print t) w (.ok ()) [t] w := by
  obtain ⟨cs, hcs⟩ := Text.exists_chars?_eq_some_iff.2 h
  exact ⟨cs, by simp [printedTexts?, hcs], fun a ha => ha ▸ exec_print_ok hcs⟩

theorem leaves_print_error {t : Text} {e : Text.Unencodable} (w : Workspace)
    (h : Text.Unencodable.inText? (Text.printed t) = some e) :
    Leaves (print t) w (.error (.inr (.unencodable e))) [] w := by
  refine .of_exec fun a ha => ?_
  simp only [print, Text.chars?_eq_none_iff.2 ⟨e, h⟩, h, exec_breakOff, ← ha]

theorem leaves_printLine {t : Text} (w : Workspace) (h : t.Plain) :
    Leaves (printLine t) w (.ok ()) [t ++ "\n"] w :=
  leaves_print w ((h.append (Text.plain_ofString "\n")).of_subset fun _ => mem_of_mem_printed)

theorem leaves_exit (code : Nat) (w : Workspace) :
    Leaves (exit code : Session α) w (.error (.inl code)) [] w :=
  .of_exec fun _ ha => ha ▸ exec_exit code

/-- What a command answers that runs so after it has noted events down. -/
theorem Leaves.answer {command run : Session Unit} {r : Except (Nat ⊕ Break) Unit}
    {events : List Event} (h : Leaves run w r ts w')
    (hcommand : exec command { workspace := w } = exec run { workspace := w, events }) :
    ∃ cs, printedTexts? ts = some cs ∧ Session.answer command w =
      Answer.ended { workspace := w', stdout := String.ofList cs, events } r := by
  obtain ⟨cs, hcs, hrun⟩ := h
  refine ⟨cs, hcs, answer_of_exec ?_⟩
  rw [hcommand, hrun _ rfl, String.empty_append]

end Session

open Session

variable {w : Workspace} {reading : Reading Misfit} {out : Option Path}

/-! ## One item -/

/-- An item is dealt with: the texts that are printed for it, whether it is put out, and the
workspace that is left. -/
inductive DealsWith (reading : Reading Misfit) (out : Option Path) (w : Workspace)
    (t : Item × Text) : List Text → Bool → Workspace → Prop
  | skipped {line : Int} (hskip : t.1.body.render reading.resolve = .error (.skip line)) :
    DealsWith reading out w t
      ["Error: " ++ t.2 ++ ": " ++ (Problem.skipRendered line).message ++ "\n"] false w
  | unresolved {e : PlaceholderError}
    (he : t.1.body.render reading.resolve = .error (.unresolved (.inl e))) :
    DealsWith reading out w t
      ["Error: " ++ t.2 ++ ": " ++ (Problem.placeholder e).message ++ "\n"] false w
  | printed {content : Text} (hout : out = none)
    (hcontent : t.1.body.render reading.resolve = .ok content) :
    DealsWith reading out w t ["==> " ++ t.2 ++ " <==" ++ "\n", content] true w
  | written {dir : Path} {content : Text} {octets : List UInt8} {w₁ w' : Workspace}
    (hout : out = some dir) (hcontent : t.1.body.render reading.resolve = .ok content)
    (hencode : Text.encode content = .ok octets)
    (hdirs : w.ensureDirs (dir.child t.2).parent = (w₁, .ok ()))
    (hwrite : w₁.write (dir.child t.2) octets = (w', .ok ())) :
    DealsWith reading out w t ["Wrote " ++ (dir.child t.2).text ++ "\n"] true w'

/-- An item breaks rendering off: the texts that are printed for it before, the cause, and the
workspace that is left. -/
inductive StopsAt (reading : Reading Misfit) (out : Option Path) (w : Workspace)
    (t : Item × Text) : List Text → Break → Workspace → Prop
  | refused {m : Misfit}
    (hm : t.1.body.render reading.resolve = .error (.unresolved (.inr m))) :
    StopsAt reading out w t [] (.misfit m) w
  | unprintable {content : Text} {e : Text.Unencodable} (hout : out = none)
    (hcontent : t.1.body.render reading.resolve = .ok content)
    (he : Text.Unencodable.inText? (Text.printed content) = some e) :
    StopsAt reading out w t ["==> " ++ t.2 ++ " <==" ++ "\n"] (.unencodable e) w
  | noDirectory {dir : Path} {content : Text} {e : AccessError} {w' : Workspace}
    (hout : out = some dir) (hcontent : t.1.body.render reading.resolve = .ok content)
    (hdirs : w.ensureDirs (dir.child t.2).parent = (w', .error e)) :
    StopsAt reading out w t [] (.access e) w'
  /-- A content that cannot be encoded asks for an empty file before it is looked at. -/
  | noFile {dir : Path} {content : Text} {e : AccessError} {w₁ w' : Workspace}
    (hout : out = some dir) (hcontent : t.1.body.render reading.resolve = .ok content)
    (hdirs : w.ensureDirs (dir.child t.2).parent = (w₁, .ok ()))
    (hwrite : w₁.write (dir.child t.2) ((Text.encode content).toOption.getD []) =
      (w', .error e)) :
    StopsAt reading out w t [] (.access e) w'
  | unencodable {dir : Path} {content : Text} {e : Text.Unencodable} {w₁ w' : Workspace}
    (hout : out = some dir) (hcontent : t.1.body.render reading.resolve = .ok content)
    (hencode : Text.encode content = .error e)
    (hdirs : w.ensureDirs (dir.child t.2).parent = (w₁, .ok ()))
    (hwrite : w₁.write (dir.child t.2) [] = (w', .ok ())) :
    StopsAt reading out w t [] (.unencodable e) w'

/-- Rendering comes to the end of an item, which is dealt with, or breaks off there. -/
def Handles (reading : Reading Misfit) (out : Option Path) (w : Workspace) (t : Item × Text) :
    Prop :=
  (∃ texts ok w', DealsWith reading out w t texts ok w' ∧
    Leaves (renderItem reading out t.1 t.2) w (.ok ok) texts w') ∨
  ∃ texts cause w', StopsAt reading out w t texts cause w' ∧
    Leaves (renderItem reading out t.1 t.2) w (.error (.inr cause)) texts w'

section
variable {dir : Path} {name content : Text} {w₁ w₂ : Workspace}
  (hdirs : w.ensureDirs (dir.child name).parent = (w₁, .ok ()))
include hdirs

theorem leaves_writeBelow {octets : List UInt8} (hpath : (dir.child name).Plain)
    (hencode : Text.encode content = .ok octets)
    (hwrite : w₁.write (dir.child name) octets = (w₂, .ok ())) :
    Leaves (writeBelow dir name content) w (.ok ()) ["Wrote " ++ (dir.child name).text ++ "\n"]
      w₂ := by
  rw [writeBelow, hencode]
  have hline := leaves_printLine w₂ ((Text.plain_ofString "Wrote ").append hpath.text)
  exact Leaves.bind (leaves_act_ok hdirs) (Leaves.bind (leaves_act_ok hwrite) hline)

theorem leaves_writeBelow_unencodable {e : Text.Unencodable}
    (hencode : Text.encode content = .error e)
    (hwrite : w₁.write (dir.child name) [] = (w₂, .ok ())) :
    Leaves (writeBelow dir name content) w (.error (.inr (.unencodable e))) [] w₂ := by
  rw [writeBelow, hencode]
  exact Leaves.bind (leaves_act_ok hdirs) (Leaves.bind (leaves_act_ok hwrite) (leaves_breakOff _ _))

theorem leaves_writeBelow_noFile {e : AccessError}
    (hwrite : w₁.write (dir.child name) ((Text.encode content).toOption.getD []) = (w₂, .error e)) :
    Leaves (writeBelow dir name content) w (.error (.inr (.access e))) [] w₂ := by
  rw [writeBelow]
  refine Leaves.bind (leaves_act_ok hdirs) ?_
  -- with and without a fault in the content the file is asked for first
  split
  next octets hencode =>
    rw [hencode] at hwrite
    exact Leaves.bind_error (leaves_act_error hwrite)
  next e' hencode =>
    rw [hencode] at hwrite
    exact Leaves.bind_error (leaves_act_error hwrite)

end

theorem leaves_report (w : Workspace) {name : Text} (hname : name.Plain) {p : Problem}
    (hp : p.message.Plain) :
    Leaves (do printLine ("Error: " ++ name ++ ": " ++ p.message); return false : Session Bool) w
      (.ok false) ["Error: " ++ name ++ ": " ++ p.message ++ "\n"] w := by
  refine Leaves.bind (leaves_printLine w ?_) (leaves_pure false w)
  exact (((Text.plain_ofString _).append hname).append (Text.plain_ofString _)).append hp

section
variable {t : Item × Text} (hname : t.2.Plain)
include hname

theorem handles_of_error {e : RenderError (PlaceholderError ⊕ Misfit)}
    (h : t.1.body.render reading.resolve = .error e)
    (hmessage : ∀ e', e = .unresolved (.inl e') → e'.message.Plain) :
    Handles reading out w t := by
  rw [Handles, renderItem, h]
  rcases e with line | e' | m
  · have hp := (Problem.plain_skipRendered line).message
    exact .inl ⟨_, _, _, .skipped h, leaves_report w hname hp⟩
  · have hp : (Problem.placeholder e').message.Plain := hmessage e' rfl
    exact .inl ⟨_, _, _, .unresolved h, leaves_report w hname hp⟩
  · exact .inr ⟨_, _, _, .refused h, leaves_breakOff _ w⟩

variable {content : Text} (hcontent : t.1.body.render reading.resolve = .ok content)
include hcontent

theorem handles_of_print : Handles reading none w t := by
  have hheader := leaves_printLine w
    (((Text.plain_ofString "==> ").append hname).append (Text.plain_ofString " <=="))
  rw [Handles, renderItem, hcontent]
  cases hfault : Text.Unencodable.inText? (Text.printed content) with
  | none =>
    have hplain := Text.Unencodable.inText?_eq_none_iff.1 hfault
    exact .inl ⟨_, _, _, .printed rfl hcontent,
      hheader.bind ((leaves_print w hplain).bind (leaves_pure true w))⟩
  | some e =>
    exact .inr ⟨_, _, _, .unprintable rfl hcontent hfault,
      hheader.bind (leaves_print_error w hfault).bind_error⟩

theorem handles_of_write {dir : Path} (hdir : dir.Plain) : Handles reading (some dir) w t := by
  rw [Handles, renderItem, hcontent]
  rcases hdirs : w.ensureDirs (dir.child t.2).parent with ⟨w₁, e | ⟨⟨⟩⟩⟩
  · exact .inr ⟨_, _, _, .noDirectory rfl hcontent hdirs,
      Leaves.bind_error (Leaves.bind_error (leaves_act_error hdirs))⟩
  rcases hwrite : w₁.write (dir.child t.2) ((Text.encode content).toOption.getD []) with
    ⟨w₂, e | ⟨⟨⟩⟩⟩
  · exact .inr ⟨_, _, _, .noFile rfl hcontent hdirs hwrite,
      (leaves_writeBelow_noFile hdirs hwrite).bind_error⟩
  rcases hencode : Text.encode content with e | octets
  · rw [hencode] at hwrite
    exact .inr ⟨_, _, _, .unencodable rfl hcontent hencode hdirs hwrite,
      (leaves_writeBelow_unencodable hdirs hencode hwrite).bind_error⟩
  · rw [hencode] at hwrite
    have hwrites := leaves_writeBelow hdirs (hdir.child hname) hencode hwrite
    exact .inl ⟨_, _, _, .written rfl hcontent hencode hdirs hwrite,
      hwrites.bind (leaves_pure true w₂)⟩

end

/-- Rendering an item whose texts are plain deals with it, unless it breaks off there. -/
theorem handles {t : Item × Text} (hitem : t.1.Plain) (hname : t.2.Plain)
    (hout : ∀ dir ∈ out, dir.Plain)
    (hresolve : ∀ text : Text, text.Plain → ∀ e, reading.resolve text = .error (.inl e) →
      e.message.Plain) (w : Workspace) :
    Handles reading out w t := by
  cases h : t.1.body.render reading.resolve with
  | error e =>
    refine handles_of_error hname h fun e' he' => ?_
    obtain ⟨text, line, hmem, he⟩ := Body.exists_of_render_eq_error (he' ▸ h)
    exact hresolve text (hitem.body _ hmem) e' he
  | ok content =>
    cases out with
    | none => exact handles_of_print hname h
    | some dir => exact handles_of_write hname h (hout dir rfl)

/-- An item has a plain content, or none for a reason that rendering tells. -/
structure Settles (reading : Reading Misfit) (item : Item) : Prop where
  told : ∀ m, item.body.render reading.resolve ≠ .error (.unresolved (.inr m))
  plain : ∀ content, item.body.render reading.resolve = .ok content → content.Plain

/-- A plain item settles if plain lines resolve to plain lines, or to an error of their own. -/
theorem Settles.of_plain {item : Item} (hitem : item.Plain)
    (hresolve : ∀ text : Text, text.Plain → (∀ l, reading.resolve text = .ok l → l.Plain) ∧
      ∀ e, reading.resolve text = .error e → ∃ e', e = .inl e' ∧ e'.message.Plain) :
    Settles reading item := by
  constructor
  · intro m hm
    obtain ⟨text, line, hmem, he⟩ := Body.exists_of_render_eq_error hm
    obtain ⟨e', heq, -⟩ := (hresolve text (hitem.body _ hmem)).2 _ he
    cases heq
  · intro content hcontent
    exact Body.plain_of_render (fun text htext => (hresolve text htext).1) hitem.body hcontent

/-- Where an item settles, only an access that is refused breaks rendering off. -/
theorem StopsAt.exists_access {t : Item × Text} {texts : List Text} {cause : Break}
    {w' : Workspace} (h : StopsAt reading out w t texts cause w') (ht : Settles reading t.1) :
    ∃ dir e, out = some dir ∧ cause = .access e := by
  cases h with
  | refused hm => exact absurd hm (ht.told _)
  | unprintable _ hcontent he =>
    have hprinted := (ht.plain _ hcontent).of_subset fun _ => mem_of_mem_printed
    cases (Text.Unencodable.inText?_eq_none_iff.2 hprinted).symm.trans he
  | noDirectory hout | noFile hout => exact ⟨_, _, hout, rfl⟩
  | unencodable _ hcontent hencode =>
    rw [Text.encode, Text.Unencodable.inText?_eq_none_iff.2 (ht.plain _ hcontent)] at hencode
    cases hencode

/-! ## One item after the other -/

/-- Items are dealt with one after the other, each of them in the workspace that was left before
it. -/
inductive DealsWithAll (reading : Reading Misfit) (out : Option Path) :
    Workspace → List (Item × Text) → List Text → List Bool → Workspace → Prop
  | nil (w : Workspace) : DealsWithAll reading out w [] [] [] w
  | cons {w w₁ w₂ : Workspace} {t : Item × Text} {ts : List (Item × Text)}
    {texts texts' : List Text} {ok : Bool} {done : List Bool}
    (hitem : DealsWith reading out w t texts ok w₁)
    (hitems : DealsWithAll reading out w₁ ts texts' done w₂) :
    DealsWithAll reading out w (t :: ts) (texts ++ texts') (ok :: done) w₂

/-- The items before one of them are dealt with, and that one breaks rendering off. -/
inductive StopsAmong (reading : Reading Misfit) (out : Option Path) (w : Workspace)
    (ts : List (Item × Text)) : List Text → Break → Workspace → Prop
  | intro {before after : List (Item × Text)} {t : Item × Text} {texts texts' : List Text}
    {done : List Bool} {w₁ w₂ : Workspace} {cause : Break} (hts : ts = before ++ t :: after)
    (hbefore : DealsWithAll reading out w before texts done w₁)
    (hstops : StopsAt reading out w₁ t texts' cause w₂) :
    StopsAmong reading out w ts (texts ++ texts') cause w₂

/-- Rendering deals with all items, or with those before one that it breaks off at. -/
theorem handles_all {ts : List (Item × Text)} (h : ∀ t ∈ ts, ∀ w, Handles reading out w t)
    (w : Workspace) :
    (∃ texts done w', DealsWithAll reading out w ts texts done w' ∧
      Leaves (ts.mapM fun t => renderItem reading out t.1 t.2) w (.ok done) texts w') ∨
    ∃ texts cause w', StopsAmong reading out w ts texts cause w' ∧
      Leaves (ts.mapM fun t => renderItem reading out t.1 t.2) w (.error (.inr cause)) texts
        w' := by
  induction ts generalizing w with
  | nil => exact .inl ⟨_, _, _, .nil w, leaves_pure [] w⟩
  | cons t ts ih =>
    obtain ⟨ht, hts⟩ := List.forall_mem_cons.1 h
    simp only [List.mapM_cons]
    rcases ht w with ⟨texts, ok, w₁, hdeals, hrun⟩ | ⟨texts, cause, w₁, hstops, hrun⟩
    · -- the items after it go on in the workspace that it leaves
      rcases ih hts w₁ with ⟨texts', done, w₂, hall, hrest⟩ | ⟨texts', cause, w₂, hstops, hrest⟩
      · refine .inl ⟨_, _, _, .cons hdeals hall, hrun.bind ?_⟩
        have hdone := hrest.bind (f := fun done => pure (ok :: done)) (leaves_pure _ w₂)
        rwa [List.append_nil] at hdone
      · refine .inr ⟨_, cause, w₂, ?_, hrun.bind hrest.bind_error⟩
        obtain ⟨rfl, hbefore, hstops⟩ := hstops
        rw [← List.append_assoc]
        exact ⟨rfl, .cons hdeals hbefore, hstops⟩
    · exact .inr ⟨texts, cause, w₁, ⟨(List.nil_append _).symm, .nil w, hstops⟩, hrun.bind_error⟩

/-! ## The whole run -/

/-- The texts that a command has printed. -/
def Answer.Shows (a : Answer) (ts : List Text) : Prop :=
  ∃ cs, printedTexts? ts = some cs ∧ a.stdout = String.ofList cs

/-- Renders the items of a document. -/
def renderItems (reading : Reading Misfit) (r : RenderRequest) (d : Document) : Session Unit := do
  let done ← (d.declaring r.param).mapM fun t => renderItem reading r.out t.1 t.2
  if !done.all id then exit 1

/-- What rendering answers about items that are put out below a directory, or printed, from the
workspace `w`. -/
structure Answer.OfItems (a : Answer) (reading : Reading Misfit) (out : Option Path)
    (w : Workspace) (ts : List (Item × Text)) : Prop where
  /-- Where it is not broken off, all items are dealt with, one after the other. The exit code is 1
  exactly when one of them is not put out. -/
  dealt : a.cause = none → ∃ texts done, DealsWithAll reading out w ts texts done a.workspace ∧
    a.Shows texts ∧ a.exitCode = if done.all id then 0 else 1
  /-- Otherwise it is broken off at one of them, after it has dealt with those before. -/
  broken : ∀ cause, a.cause = some cause → ∃ texts,
    StopsAmong reading out w ts texts cause a.workspace ∧ a.Shows texts ∧ a.exitCode = 1
  /-- Where each item settles, this only happens where a directory or a file is refused. -/
  refused : (∀ t ∈ ts, Settles reading t.1) → ∀ cause, a.cause = some cause →
    ∃ dir e, out = some dir ∧ cause = .access e

theorem Answer.OfItems.with_events {a : Answer} {ts : List (Item × Text)}
    (h : a.OfItems reading out w ts) (events : List Event) :
    { a with events }.OfItems reading out w ts :=
  ⟨h.dealt, h.broken, h.refused⟩

section
variable {r : RenderRequest} {d : Document} (hloads : r.Loads w reading d)
include hloads

theorem exec_render_of_loads :
    ∃ events, exec (render r) { workspace := w } =
      exec (renderItems reading r d) { workspace := w, events } := by
  obtain ⟨s, vars, o, hs, hvars, ho, rfl, hd⟩ := hloads
  let events := (Survey.loadFile (o.reading vars) w r.specFile).events
  have hdocument : exec (documentOrFail (o.reading vars) r.specFile) { workspace := w } =
      (.ok d, { workspace := w, events }) :=
    exec_documentOrFail_eq_ok_iff.2 ⟨hd, rfl⟩
  refine ⟨events, ?_⟩
  rw [render, exec_bind_ok (exec_settingsOrFail_ok hs),
    exec_bind_ok (exec_variablesOrFail_ok hvars), exec_bind_ok (exec_optionsOrFail_ok ho),
    exec_bind_ok hdocument]
  rfl

/-- The items of a document that is loaded are plain, and why one of their lines is not resolved is
told in plain words. -/
theorem plain_of_loads :
    (∀ item ∈ d.items, item.Plain) ∧
      ∀ text : Text, text.Plain → ∀ e, reading.resolve text = .error (.inl e) →
        e.message.Plain := by
  obtain ⟨s, vars, o, -, -, -, rfl, hd⟩ := hloads
  obtain ⟨cs, hparse⟩ := Survey.exists_parse_of_loadFile hd
  refine ⟨Document.plain_of_parse (Text.plain_ofChars cs) hparse, ?_⟩
  intro text htext e he
  change o.resolve vars text = _ at he
  rw [Settings.Options.resolve] at he
  split at he
  · cases he
  · obtain ⟨e', he', heq⟩ := mapError_eq_error_iff.1 he
    obtain rfl := Sum.inl.inj heq
    exact (Template.printableUpTo_of_substitute he').plain htext

/-- Rendering deals with all items of a document that is loaded, or breaks off at one of them. -/
theorem ofItems_render (hout : ∀ dir ∈ r.out, dir.Plain) :
    (answer (render r) w).OfItems reading r.out w (d.declaring r.param) := by
  obtain ⟨hitems, hresolve⟩ := plain_of_loads hloads
  obtain ⟨events, hcommand⟩ := exec_render_of_loads hloads
  have hhandles : ∀ t ∈ d.declaring r.param, ∀ w, Handles reading r.out w t := by
    intro t ht
    obtain ⟨hitem, hname⟩ := Check.plain_of_mem_declaring hitems ht
    exact handles hitem hname hout hresolve
  rcases handles_all hhandles w with
    ⟨texts, done, w', hall, hrun⟩ | ⟨texts, cause, w', hstops, hrun⟩
  · have hends : Leaves (if !done.all id then exit 1 else pure ()) w'
        (if done.all id then .ok () else .error (.inl 1)) [] w' := by
      cases done.all id with
      | true => exact leaves_pure () w'
      | false => exact leaves_exit 1 w'
    obtain ⟨cs, hcs, hanswer⟩ := (hrun.bind hends).answer hcommand
    rw [List.append_nil] at hcs
    have hended : answer (render r) w =
        { workspace := w', stdout := String.ofList cs, events,
          exitCode := if done.all id then 0 else 1 } := by
      rw [hanswer]
      cases done.all id <;> rfl
    rw [hended]
    exact ⟨fun _ => ⟨texts, done, hall, ⟨cs, hcs, rfl⟩, rfl⟩, nofun, fun _ => nofun⟩
  · obtain ⟨cs, hcs, hanswer⟩ := hrun.bind_error.answer hcommand
    rw [hanswer]
    refine ⟨nofun, fun cause' hcause => ?_, fun hsettles cause' hcause => ?_⟩
    · obtain rfl := Option.some.inj hcause
      exact ⟨texts, hstops, ⟨cs, hcs, rfl⟩, rfl⟩
    · obtain rfl := Option.some.inj hcause
      obtain ⟨hts, -, hstops⟩ := hstops
      exact hstops.exists_access (hsettles _ (hts ▸ List.mem_append_right _ List.mem_cons_self))

end

/-- Whatever a document that is loaded and the workspace hold, rendering deals with the items that
declare the parameter one after the other: with all of them, unless it is broken off at one. -/
theorem render_deals {r : RenderRequest} {d : Document} {args : List String} {verbose : Bool}
    (hargs : Request.ofArguments w args = .ok (.render r, verbose)) (hloads : r.Loads w reading d) :
    (run w args).OfItems reading r.out w (d.declaring r.param) := by
  have hr : (Request.render r).Plain := Request.plain_of_ofArguments hargs
  obtain ⟨events, hrun⟩ := run_of_request hargs
  rw [hrun, perform]
  exact (ofItems_render hloads hr.2).with_events events

/-- A workspace with a specification of two files. The first of them has a skip, and an older
version of it is there. -/
def skipping : Workspace where
  tree.entries := [(["out"], .dir), (["out", "a"], .file (Text.Utf8.encode "old\n".toList)),
    (["s.txt"], .file (Text.Utf8.encode "## file: a\n..\n## file: b\ny\n".toList))]
  tree.nodup := show List.Nodup [[("out" : Text)], ["out", "a"], ["s.txt"]] by decide

theorem loads_skipping : RenderRequest.Loads
    { specFile := ⟨.relative, ["s.txt"]⟩, out := some ⟨.relative, ["out"]⟩ } skipping
    (Settings.Options.reading ⟨.text "..", .text "##", .text "$\x7b", .text "\x7d", .bool false⟩ [])
    ⟨[⟨[("file", "a")], [.skip 2], 1⟩, ⟨[("file", "b")], [.literal "y" 4], 3⟩], some "s.txt"⟩ :=
  ⟨{}, [], _, rfl, rfl, rfl, rfl, by decide +kernel⟩

theorem render_deals_skip : ∃ (reading : Reading Misfit) (d : Document) (texts : List Text)
    (done : List Bool),
    DealsWithAll reading (some ⟨.relative, ["out"]⟩) skipping (d.declaring "file") texts done
      (run skipping ["render", "s.txt", "--out", "out"]).workspace ∧
    (run skipping ["render", "s.txt", "--out", "out"]).Shows texts ∧
    (run skipping ["render", "s.txt", "--out", "out"]).stdout =
      "Error: a: Cannot render skip marker at line 2\nWrote out/b\n" ∧
    (run skipping ["render", "s.txt", "--out", "out"]).exitCode = 1 ∧ done.all id = false := by
  have hargs : Request.ofArguments skipping ["render", "s.txt", "--out", "out"] =
      .ok (.render { specFile := ⟨.relative, ["s.txt"]⟩, out := some ⟨.relative, ["out"]⟩ },
        false) := by
    decide +kernel
  have hcause : (run skipping ["render", "s.txt", "--out", "out"]).cause = none := by
    decide +kernel
  have hexit : (run skipping ["render", "s.txt", "--out", "out"]).exitCode = 1 := by
    decide +kernel
  have hstdout : (run skipping ["render", "s.txt", "--out", "out"]).stdout =
      "Error: a: Cannot render skip marker at line 2\nWrote out/b\n" := by
    decide +kernel
  obtain ⟨texts, done, hall, hshows, hcode⟩ := (render_deals hargs loads_skipping).dealt hcause
  refine ⟨_, _, texts, done, hall, hshows, hstdout, hexit, ?_⟩
  rw [hexit] at hcode
  cases hdone : done.all id with
  | false => rfl
  | true =>
    rw [hdone] at hcode
    cases hcode

/-- A workspace with a specification of two files, and a directory where the first of them is to be
written. -/
def obstructed : Workspace where
  tree.entries := [(["out"], .dir), (["out", "a"], .dir),
    (["s.txt"], .file (Text.Utf8.encode "## file: a\nx\n## file: b\ny\n".toList))]
  tree.nodup := show List.Nodup [[("out" : Text)], ["out", "a"], ["s.txt"]] by decide

/-- An item whose file cannot be written breaks rendering off. Nothing is told of it, and the item
after it is not dealt with. -/
theorem render_breaks_off :
    (run obstructed ["render", "s.txt", "--out", "out"]).cause =
      some (.access (.os .isDirectory "out/a")) ∧
    (run obstructed ["render", "s.txt", "--out", "out"]).exitCode = 1 ∧
    (run obstructed ["render", "s.txt", "--out", "out"]).stdout = "" ∧
    (run obstructed ["render", "s.txt", "--out", "out"]).workspace.tree.get?
      (["out", "b"] : Location) = none := by
  decide +kernel

end LineSpec.Command
