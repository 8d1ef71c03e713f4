import LineScore.Command.Run
import LineScore.FileTree
import LineScore.Proofs.ByteLimits
import LineScore.Proofs.Fields

/-! What a run leaves behind on the files. Only a run that has read, compiled and rendered its song begins a
file, and it begins one; the other files stay as they were. The file is begun before its tracks are put into
bytes, so a run that fails after that leaves the header. -/

namespace LineScore

namespace Session

/-- Whether steps lead from a session to another one. -/
def Reaches (s t : Session) : Prop :=
  ∃ steps, t = s.run steps

namespace Reaches

variable {s t u : Session}

theorem refl (s : Session) : Reaches s s :=
  ⟨[], rfl⟩

theorem trans (hfirst : Reaches s t) (hlast : Reaches t u) : Reaches s u := by
  obtain ⟨first, rfl⟩ := hfirst
  obtain ⟨last, rfl⟩ := hlast
  exact ⟨first ++ last, (List.foldl_append ..).symm⟩

theorem step (s : Session) (next : Step) : Reaches s (s.step next).state :=
  ⟨[next], rfl⟩

/-- An attempt in two parts leaves what steps lead to, wherever it stops, if each part does. -/
theorem andThen {a : Attempt Session} {next : Session → Attempt Session} (hfirst : Reaches s a.state)
    (hnext : ∀ t, Reaches t (next t).state) : Reaches s (a.andThen next).state :=
  Attempt.andThen_state hfirst fun hstate => hstate.trans (hnext _)

theorem attemptAll (steps : List Step) (s : Session) : Reaches s (Session.attemptAll steps s).state := by
  induction steps generalizing s with
  | nil => exact refl s
  | cons next rest ih => exact andThen (step s next) ih

theorem attemptTimes (next : Step) (times : Nat) (s : Session) :
    Reaches s (Session.attemptTimes next times s).state := by
  induction times generalizing s with
  | zero => exact refl s
  | succ times ih => exact andThen (step s next) ih

theorem attemptSections (entries : List SectionEntry) (s : Session) :
    Reaches s (Document.attemptSections entries s).state := by
  induction entries generalizing s with
  | nil => exact refl s
  | cons e rest ih =>
      refine andThen ?_ ih
      rw [SectionEntry.attempt]
      split
      · exact refl s
      · next label _ => exact andThen (attemptAll e.settings s) (attemptTimes (e.writing label) e.times.toNat)

end Reaches

end Session

/-- The song of a document is one that steps write. -/
theorem Document.exists_steps_of_compile {d : Document} {s : Song} (h : d.compile.result = .ok s) :
    ∃ steps, s = (Session.run {} steps).song := by
  obtain ⟨steps, hsteps⟩ : Session.Reaches {} d.attempt.state :=
    .andThen (.attemptAll d.declarations {}) (.attemptSections d.sections)
  simp only [compile] at h
  split at h
  · cases h
  · cases h
    exact ⟨steps, congrArg Session.song hsteps⟩

theorem SongFile.exists_steps_of_load {depth : Nat} {view : FileView} {name : String} {s : Song}
    (h : (load depth view name).result = .ok s) : ∃ steps, s = (Session.run {} steps).song := by
  obtain ⟨value, -, h⟩ := Logged.exists_of_bind h
  simp only [Document.load] at h
  split at h
  · exact Document.exists_steps_of_compile h
  · cases h

namespace FileTree

theorem bytesOf?_putFile (t : FileTree) (place other : List String) (bytes : List UInt8) :
    (t.putFile place bytes).bytesOf? other = if other = place then some bytes else t.bytesOf? other := by
  unfold putFile
  cases hold : t.bytesOf? place with
  | some old =>
      rw [Option.isSome_some, if_pos rfl, bytesOf?, find?_replace, ← bytesOf?, ← bytesOf?, hold]
      rfl
  | none =>
      by_cases hother : other = place
      · subst hother
        have hnone : t.files.find? (fun f => f.1 = other) = none := Option.map_eq_none_iff.mp hold
        simp [bytesOf?, List.find?_append, hnone]
      · simp [bytesOf?, List.find?_append, hother, Ne.symm hother]

/-- A name that as a path leads to the file of that name, if to any. -/
structure IsPlain (name : String) : Prop where
  whole : name.splitOn "/" = [name]
  relative : name.startsWith "/" = false
  proper : name ≠ "" ∧ name ≠ "." ∧ name ≠ ".."
  short : name.utf8ByteSize ≤ maxNameBytes
  nameable : FileView.isNameable name = true

section Names

variable {name : String} (t : FileTree)

theorem locate_of_isPlain (h : IsPlain name) (hfile : t.hasDirectory [name] = false) :
    t.locate name = ((t.bytesOf? [name]).elim .vacant .file, [name]) := by
  obtain ⟨hempty, hdot, hdots⟩ := h.proper
  have hshort := h.short
  have hpath : ¬ maxPathBytes < name.utf8ByteSize := by
    simp only [maxNameBytes, maxPathBytes] at hshort ⊢
    omega
  rw [locate, h.whole, h.relative, if_neg (by simpa using hempty), if_neg hpath, if_neg Bool.false_ne_true]
  cases hbytes : t.bytesOf? [name] with
  | none => simp [follow, hempty, hdot, hdots, hfile, hbytes, not_lt.mpr hshort]
  | some bytes => simp [follow, hempty, hdot, hdots, hfile, hbytes, not_lt.mpr hshort]

theorem canWrite_of_isPlain (h : IsPlain name) (hfile : t.hasDirectory [name] = false) :
    t.view.canWrite name = .ok () := by
  rw [FileView.canWrite, h.nameable, view, t.locate_of_isPlain h hfile]
  cases t.bytesOf? [name] <;> rfl

end Names

/-- Whether a tree is another one with the bytes at one place replaced, and nothing else. -/
structure SameBut (t u : FileTree) (place : List String) (bytes : List UInt8) : Prop where
  directories_eq : u.directories = t.directories
  bytesOf?_eq : ∀ other, u.bytesOf? other = if other = place then some bytes else t.bytesOf? other

theorem write_sameBut (t : FileTree) (path : String) (bytes : List UInt8) :
    SameBut t (t.write path bytes) (t.locate path).2 bytes where
  directories_eq := by
    unfold write putFile
    split <;> rfl
  bytesOf?_eq other := t.bytesOf?_putFile _ other bytes

end FileTree

namespace Command

/-- The path that a compiled song is written to. -/
def Request.target (r : Request) : String :=
  r.output.getD ((Path.ofText r.song).withSuffix ".mid").text

namespace Outcome

def leaves (o : Outcome) (t : FileTree) : FileTree :=
  o.writes.foldl (fun t w => t.write w.1 w.2) t

variable (o : Outcome)

@[simp] theorem writes_log (verbose : Bool) (notices : List Notice) :
    (o.log verbose notices).writes = o.writes := by
  cases verbose <;> rfl

@[simp] theorem writes_print (text : String) : (o.print text).writes = o.writes := rfl

@[simp] theorem exitCode_log (verbose : Bool) (notices : List Notice) :
    (o.log verbose notices).exitCode = o.exitCode := by
  cases verbose <;> rfl

@[simp] theorem exitCode_print (text : String) : (o.print text).exitCode = o.exitCode := rfl

@[simp] theorem writes_crash (e : Error) : (o.crash e).writes = o.writes := rfl

@[simp] theorem writes_refuseSong (e : Error) : (o.refuseSong e).writes = o.writes := by
  unfold refuseSong
  split <;> rfl

@[simp] theorem writes_refuseMidi (e : Error) : (o.refuseMidi e).writes = o.writes := by
  unfold refuseMidi
  split <;> rfl

end Outcome

/-- A run that comes to the point of writing: the song is read, compiled and rendered, and a file can be
opened at the target. -/
structure Begins (depth : Nat) (view : FileView) (arguments : List String) (r : Request) (s : Song)
    (f : Midi.File) : Prop where
  asked : read view arguments = .run r
  verb : r.verb = .compile
  loaded : (SongFile.load depth view r.song).result = .ok s
  summed : ∃ line, summary s = .ok line
  rendered : (Midi.render {} s).result = .ok f
  writable : view.canWrite r.target = .ok ()

section Runs

variable {depth : Nat} {view : FileView} {arguments : List String} {r : Request} {s : Song} {f : Midi.File}
  {o : Outcome}

theorem writes_printRows (o : Outcome) (rows : List (Except Error String)) :
    (printRows o rows).writes = o.writes := by
  induction rows generalizing o with
  | nil => rfl
  | cons row rest ih =>
      cases row with
      | error e => rfl
      | ok text => exact ih (o.print text)

theorem writes_runTimeline (depth : Nat) (view : FileView) (verbose : Bool) (song : String) :
    (runTimeline depth view verbose song).writes = [] := by
  unfold runTimeline
  dsimp only
  split
  · rw [Outcome.writes_refuseSong, Outcome.writes_log]
  · rw [writes_printRows, Outcome.writes_log]

theorem writes_exportSong {verbose : Bool} {target : String} (ho : o.writes = [])
    (hnone : ∀ f, (Midi.render {} s).result = .ok f → view.canWrite target ≠ .ok ()) :
    (exportSong view verbose s target o).writes = [] := by
  unfold exportSong
  dsimp only
  split
  · rw [Outcome.writes_refuseMidi, Outcome.writes_log, ho]
  · next f hrender =>
      split
      · rw [Outcome.writes_refuseMidi, Outcome.writes_log, ho]
      · next hwrite => exact absurd hwrite (hnone f hrender)

/-- A run that does not come to the point of writing writes nothing. -/
theorem writes_of_not_begins (hnone : ∀ r s f, ¬ Begins depth view arguments r s f) :
    (run depth view arguments).writes = [] := by
  unfold run
  split
  · next verbose song output hread =>
      unfold runCompile
      dsimp only
      split
      · rw [Outcome.writes_refuseSong, Outcome.writes_log, Outcome.writes_print]
      · next s hload =>
          split
          · rw [Outcome.writes_crash, Outcome.writes_log, Outcome.writes_print]
          · next line hsum =>
              refine writes_exportSong ?_ fun f hrender hwrite => ?_
              · rw [Outcome.writes_print, Outcome.writes_log, Outcome.writes_print]
              · exact hnone _ s f ⟨hread, rfl, hload, ⟨line, hsum⟩, hrender, hwrite⟩
  · exact writes_runTimeline depth view _ _
  all_goals rfl

namespace Begins

/-- A run that comes to the point of writing goes on with the export of its song. -/
theorem exists_run_eq (h : Begins depth view arguments r s f) :
    ∃ o : Outcome, o.exitCode = 0 ∧ run depth view arguments = exportSong view r.verbose s r.target o := by
  obtain ⟨verbose, verb, song, output⟩ := r
  obtain ⟨hasked, rfl, hload, ⟨line, hsum⟩, -, -⟩ := h
  refine ⟨?before, ?code, ?compiled⟩
  case compiled =>
    rw [run, hasked]
    dsimp only [runCompile]
    rw [hload]
    dsimp only
    rw [hsum]
    rfl
  case code => rw [Outcome.exitCode_print, Outcome.exitCode_log, Outcome.exitCode_print]

/-- If the file has bytes, the run writes them and ends well. -/
theorem exitCode_of_bytes (h : Begins depth view arguments r s f) {bytes : List UInt8}
    (hbytes : f.bytes = .ok bytes) : (run depth view arguments).exitCode = 0 := by
  obtain ⟨o, ho, hrun⟩ := h.exists_run_eq
  rw [hrun, exportSong, h.rendered, h.writable]
  dsimp only
  rw [hbytes]
  dsimp only
  rw [Outcome.exitCode_print, Outcome.exitCode_log]
  exact (Outcome.exitCode_log o _ _).trans ho

/-- If it has none, and nobody is told why, the header is all that is written. -/
theorem run_of_error (h : Begins depth view arguments r s f) {e : Error} (hbytes : f.bytes = .error e)
    (hsilent : audience e = .nobody) :
    (run depth view arguments).exitCode = 1 ∧ (run depth view arguments).exception = some e ∧
      (run depth view arguments).writes = [(r.target, f.header)] := by
  obtain ⟨o, -, hrun⟩ := h.exists_run_eq
  have hcrash : ∀ o : Outcome, o.refuseMidi e = o.crash e := by
    intro o
    rw [Outcome.refuseMidi, hsilent]
  rw [hrun, exportSong, h.rendered, h.writable]
  dsimp only
  rw [hbytes]
  dsimp only
  rw [hcrash]
  exact ⟨rfl, rfl, rfl⟩

/-- The song of a run is one that steps write. -/
theorem exists_steps (h : Begins depth view arguments r s f) : ∃ steps, s = (Session.run {} steps).song :=
  SongFile.exists_steps_of_load h.loaded

theorem run_of_meterOverflows (h : Begins depth view arguments r s f) (hmeter : s.MeterOverflows) :
    (run depth view arguments).exitCode = 1 ∧ (run depth view arguments).exception = some .byteRange ∧
      (run depth view arguments).writes = [(r.target, f.header)] := by
  obtain ⟨steps, rfl⟩ := h.exists_steps
  exact h.run_of_error (Midi.bytes_of_meterOverflows steps h.rendered hmeter) rfl

/-- A run begins one file. -/
theorem unique (h : Begins depth view arguments r s f) {q : Request} {u : Song} {g : Midi.File}
    (hother : Begins depth view arguments q u g) : q = r ∧ u = s ∧ g = f := by
  obtain rfl : q = r := by simpa [h.asked] using hother.asked.symm
  obtain rfl : u = s := by simpa [h.loaded] using hother.loaded.symm
  have hrendered := hother.rendered
  rw [h.rendered] at hrendered
  cases hrendered
  exact ⟨rfl, rfl, rfl⟩

end Begins

end Runs

/-- A run that fails leaves the files as they were, unless it has come to the point of writing. Then a meter is
too wide for its bytes or a track too long for its chunk, which nobody is told, and one file, new or
old, holds the header and nothing else. -/
theorem leaves_of_failed (depth : Nat) (t : FileTree) (arguments : List String)
    (hfailed : (run depth t.view arguments).exitCode ≠ 0) :
    let o := run depth t.view arguments
    ((∀ r s f, ¬ Begins depth t.view arguments r s f) ∧ o.leaves t = t) ∨
      ∃ r s f, Begins depth t.view arguments r s f ∧
        FileTree.SameBut t (o.leaves t) (t.locate r.target).2 f.header ∧
        ((s.MeterOverflows ∧ o.exception = some .byteRange) ∨
          (¬ s.MeterOverflows ∧ (∃ track ∈ f.tracks, track.IsTooLong) ∧ o.exception = some .chunkRange)) := by
  intro o
  by_cases hnone : ∀ r s f, ¬ Begins depth t.view arguments r s f
  · refine .inl ⟨hnone, ?_⟩
    rw [Outcome.leaves, writes_of_not_begins hnone, List.foldl_nil]
  · push Not at hnone
    obtain ⟨r, s, f, h⟩ := hnone
    have hheader : ∀ e, f.bytes = .error e → audience e = .nobody →
        FileTree.SameBut t (o.leaves t) (t.locate r.target).2 f.header ∧ o.exception = some e := by
      intro e hbytes hsilent
      obtain ⟨-, hexception, hwrites⟩ := h.run_of_error hbytes hsilent
      refine ⟨?_, hexception⟩
      rw [Outcome.leaves, hwrites]
      exact t.write_sameBut r.target f.header
    obtain ⟨steps, rfl⟩ := h.exists_steps
    refine .inr ⟨r, _, f, h, ?_⟩
    rcases Midi.bytes_of_render steps h.rendered with
      ⟨hmeter, hbytes⟩ | ⟨hmeter, hlong, hbytes⟩ | ⟨-, -, bytes, hbytes⟩
    · obtain ⟨hsame, hexception⟩ := hheader _ hbytes rfl
      exact ⟨hsame, .inl ⟨hmeter, hexception⟩⟩
    · obtain ⟨hsame, hexception⟩ := hheader _ hbytes rfl
      exact ⟨hsame, .inr ⟨hmeter, hlong, hexception⟩⟩
    · exact absurd (h.exitCode_of_bytes hbytes) hfailed

section Overwide

/-- A song file with more beats in a measure than a byte can hold. -/
def overwideSheet : List UInt8 :=
  ["\x7b\"instruments\": [", "\x7b\"name\": \"Violin\", ", "\"symbol\": \"vi\"\x7d], ",
    "\"sections\": [\x7b\"lines\": [", "\x7b\"notes\": \"1:c\", ", "\"voice\": \"vi\"\x7d], ",
    "\"time\": \"256/256\"\x7d], ", "\"title\": \"Doc\"\x7d"].flatMap Midi.letters

def overwideSong : Song :=
  let violin : Instrument := ⟨"vi", "Violin", ⟨40, by decide⟩⟩
  let meter : Meter := ⟨256, 256, by decide, by decide⟩
  let whole : Note := { duration := ⟨1, 0⟩, letter := .c, accidental := .natural, octave := 4 }
  { title := "Doc", meter, instruments := [violin], voices := [⟨violin, 0, [.note whole], 4⟩], length := 4
    measureCount := 1, history := [(1, meter)], meterChanges := [(0, meter)], keyChanges := [(0, .cMajor)] }

theorem meterOverflows_overwide : overwideSong.MeterOverflows := by
  decide

theorem isPlain_of_mem {name : String} (h : name ∈ ["a.json", "a.mid"]) : FileTree.IsPlain name := by
  simp only [List.mem_cons, List.not_mem_nil, or_false] at h
  rcases h with rfl | rfl
  all_goals exact {
    whole := by simp +decide [String.splitOn, String.splitOnAux]
    relative := by decide +kernel
    proper := by decide
    short := by decide
    nameable := by decide +kernel }

theorem isPlain_sheet : FileTree.IsPlain "a.json" :=
  isPlain_of_mem (by simp)

theorem isPlain_target : FileTree.IsPlain "a.mid" :=
  isPlain_of_mem (by simp)

theorem ofText_sheet : Path.ofText "a.json" = ⟨"", ["a.json"]⟩ := by
  rw [Path.ofText, Path.pieces, isPlain_sheet.whole]
  decide +kernel

theorem load_overwide {view : FileView} (hsheet : view "a.json" = .file overwideSheet) :
    (SongFile.load 100 view "a.json").result = .ok overwideSong := by
  have hread : view.read "a.json" = .ok overwideSheet := by
    rw [FileView.read, isPlain_sheet.nameable, hsheet]
    rfl
  have hpath : (Path.ofText "a.json").text = "a.json" := by
    rw [ofText_sheet]
    decide +kernel
  have hload : (SongFile.decode 100 "a.json" overwideSheet).map (fun value => (Document.load "a.json" value).result) =
      .ok (.ok overwideSong) := by decide +kernel
  obtain ⟨value, hvalue, hsong⟩ := exists_of_map_eq_ok hload
  rw [SongFile.load, hpath]
  simp only [hread, bind, Except.bind, hvalue]
  exact hsong

def soloHeader : List UInt8 :=
  [0x4d, 0x54, 0x68, 0x64, 0x00, 0x00, 0x00, 0x06, 0x00, 0x01, 0x00, 0x03, 0x03, 0xc0]

theorem begins_of_overwide {t : FileTree} (hsheet : t.bytesOf? ["a.json"] = some overwideSheet)
    (hfiles : t.directories = [[], ["/"]]) :
    ∃ r f, Begins 100 t.view ["compile", "a.json"] r overwideSong f ∧ (t.locate r.target).2 = ["a.mid"] ∧
      f.header = soloHeader := by
  have hhere : t.hasDirectory ["a.json"] = false := by simp [FileTree.hasDirectory, hfiles]
  have hthere : t.hasDirectory ["a.mid"] = false := by simp [FileTree.hasDirectory, hfiles]
  have hview : t.view "a.json" = .file overwideSheet := by
    rw [FileTree.view, t.locate_of_isPlain isPlain_sheet hhere, hsheet]
    rfl
  let r : Request := ⟨false, .compile, "a.json", none⟩
  have hname : r.target = "a.mid" := by
    rw [Request.target, ofText_sheet]
    decide +kernel
  have hasked : read t.view ["compile", "a.json"] = .run r := by
    have hprogram : scan programOptions false ["compile", "a.json"] = .ok ⟨[], ["compile", "a.json"]⟩ := by
      decide +kernel
    have hverb : scan (verbOptions .compile) true ["a.json"] = .ok ⟨[], ["a.json"]⟩ := by decide +kernel
    simp [r, read, hprogram, eager?, Verb.ofName?, Verb.all, Verb.name, readVerb, hverb, requestOf,
      isPlain_sheet.nameable, hview, Scanned.value?]
  have hsummed : ∃ line, summary overwideSong = .ok line := Midi.exists_of_isOk (by decide +kernel)
  have hrender : ((Midi.render {} overwideSong).result.map Midi.File.header) = .ok soloHeader := by
    decide +kernel
  obtain ⟨f, hf, hheader⟩ := exists_of_map_eq_ok hrender
  refine ⟨r, f, ⟨hasked, rfl, load_overwide hview, hsummed, hf, ?_⟩, ?_, hheader⟩
  · rw [hname]
    exact t.canWrite_of_isPlain isPlain_target hthere
  · rw [hname, t.locate_of_isPlain isPlain_target hthere]

/-- Where nothing stands at the target, the run leaves a file that holds the header only. -/
theorem leaves_of_failed_overwide :
    let t : FileTree := { files := [(["a.json"], overwideSheet)] }
    let o := run 100 t.view ["compile", "a.json"]
    o.exitCode ≠ 0 ∧ o.exception = some .byteRange ∧ t.bytesOf? ["a.mid"] = none ∧
      (o.leaves t).bytesOf? ["a.mid"] = some soloHeader := by
  intro t o
  have hsheet : t.bytesOf? ["a.json"] = some overwideSheet := by simp [t, FileTree.bytesOf?]
  obtain ⟨r, f, h, hplace, hheader⟩ := begins_of_overwide hsheet rfl
  have hfailed : o.exitCode ≠ 0 := by
    rw [(h.run_of_meterOverflows meterOverflows_overwide).1]
    decide
  rcases leaves_of_failed 100 t ["compile", "a.json"] hfailed with ⟨hnone, -⟩ | ⟨q, u, g, hother, hsame, hwhy⟩
  · exact absurd h (hnone _ _ _)
  · obtain ⟨rfl, rfl, rfl⟩ := h.unique hother
    rcases hwhy with ⟨-, hexception⟩ | ⟨hnarrow, -⟩
    · refine ⟨hfailed, hexception, rfl, ?_⟩
      rw [hsame.bytesOf?_eq, hplace, if_pos rfl, hheader]
    · exact absurd meterOverflows_overwide hnarrow

/-- Where a file stands at the target, the failed run takes its bytes. -/
theorem leaves_over_old :
    let old := Midi.letters "old contents"
    let t : FileTree := { files := [(["a.json"], overwideSheet), (["a.mid"], old)] }
    let o := run 100 t.view ["compile", "a.json"]
    o.exitCode ≠ 0 ∧ t.bytesOf? ["a.mid"] = some old ∧
      (o.leaves t).bytesOf? ["a.mid"] = some soloHeader ∧ soloHeader ≠ old := by
  intro old t o
  have hsheet : t.bytesOf? ["a.json"] = some overwideSheet := by simp [t, FileTree.bytesOf?]
  obtain ⟨r, f, h, hplace, hheader⟩ := begins_of_overwide hsheet rfl
  obtain ⟨hcode, -, hwrites⟩ := h.run_of_meterOverflows meterOverflows_overwide
  refine ⟨by rw [hcode]; decide, rfl, ?_, by decide⟩
  have hsame := t.write_sameBut r.target f.header
  rw [Outcome.leaves, hwrites]
  refine (hsame.bytesOf?_eq ["a.mid"]).trans ?_
  rw [hplace, if_pos rfl, hheader]

end Overwide

end Command

end LineScore
