import SourceAtlas.Program
import SourceAtlas.Proofs.Seed.Types

/-!
# How a run ends

A command succeeds if there is something to analyse, its seed names something there, its format is one
for what it shows, and its text can be put where it is to go (`Command.Succeeds`). Whether it does is
settled before anything is put out. So a command that fails leaves behind what it found
(`perform_of_misses`, `perform_of_breaks`), whatever the reason, and the exit code tells the reason.
-/

namespace SourceAtlas

open Ordered (Increasing)
open Seed (Nameless NamelessType)

variable {t : FileTree} {s : Settings} {root : Path}

/-! ### Analyses -/

namespace Analysis

/-- In a directory both analyses succeed, whatever the files hold. -/
theorem exists_ok (directory : t.isDirectory root = true) (s : Settings) :
  (∃ g, references t s root = .ok g) ∧ ∃ c, types t s root = .ok c
  := by
  rw [references, types, Scan.units, if_pos directory]
  exact ⟨⟨_, rfl⟩, _, rfl⟩

/-- Elsewhere both fail. -/
theorem eq_error (missing : t.isDirectory root = false) (s : Settings) :
  references t s root = .error (.rootNotFound root.text)
    ∧ types t s root = .error (.rootNotFound root.text)
  := by
  rw [references, types, Scan.units, missing]
  exact ⟨rfl, rfl⟩

end Analysis

/-! ### Texts -/

namespace Command

variable {c : Command} {seed : String} {known : List String}

/-- The seed of a command names nothing in what was analysed, where the given identities are known. -/
inductive Misses (t : FileTree) (s : Settings) (root : Path) :
    Command → String → List String → Prop where
  | tree {seed : String} {reverse : Bool} {format : OutputFormat} {output : Option Path} {g : Graph}
      (analysed : Analysis.references t s root = .ok g) (nameless : Nameless t g root seed) :
    Misses t s root (.tree seed reverse format output) seed g.identities
  | graph {seed : String} {format : OutputFormat} {output : Option Path} {g : Graph}
      (analysed : Analysis.references t s root = .ok g) (nameless : Nameless t g root seed) :
    Misses t s root (.graph (some seed) format output) seed g.identities
  | focusUnits {seed : String} {rounds : Option Nat} {format : OutputFormat} {output : Option Path}
      {g : Graph} (analysed : Analysis.references t s root = .ok g)
      (nameless : Nameless t g root seed) :
    Misses t s root (.focus seed rounds .simple format output) seed g.identities
  | focusTypes {seed : String} {rounds : Option Nat} {format : OutputFormat} {output : Option Path}
      {catalog : Catalog} (analysed : Analysis.types t s root = .ok catalog)
      (nameless : NamelessType t catalog root seed) :
    Misses t s root (.focus seed rounds .ast format output) seed catalog.identities

theorem Misses.directory (h : c.Misses t s root seed known) :
  t.isDirectory root = true
  := by
  by_contra missing
  obtain ⟨references, types⟩ := Analysis.eq_error (Bool.eq_false_iff.mpr missing) s
  cases h with
  | tree analysed _ => exact nomatch references.symm.trans analysed
  | graph analysed _ => exact nomatch references.symm.trans analysed
  | focusUnits analysed _ => exact nomatch references.symm.trans analysed
  | focusTypes analysed _ => exact nomatch types.symm.trans analysed

theorem Misses.increasing (h : c.Misses t s root seed known) :
  Increasing known
  := by
  cases h with
  | tree _ _ => apply Ordered.increasing_ofList
  | graph _ _ => apply Ordered.increasing_ofList
  | focusUnits _ _ => apply Ordered.increasing_ofList
  | focusTypes _ _ => apply Catalog.increasing_identities

/-- The command asks for a tree in a format for diagrams. -/
def isTreeAsDiagram : Command → Bool
  | tree _ _ .dot _ => true
  | _ => false

theorem text_of_missing (missing : t.isDirectory root = false) (s : Settings) (c : Command) :
  c.text t s root = .error (.analysis (.rootNotFound root.text))
  := by
  obtain ⟨references, types⟩ := Analysis.eq_error missing s
  cases c with
  | tree seed reverse format output => rw [text, references]; rfl
  | graph seed format output => rw [text, references]; rfl
  | classes format output => rw [text, types]; rfl
  | focus seed rounds mode format output =>
    cases mode with
    | ast => simp only [text, types]; rfl
    | simple => simp only [text, references]; rfl
  | stats => rw [text, references]; rfl

section Analysed

variable {g : Graph} {catalog : Catalog}

theorem text_tree (analysed : Analysis.references t s root = .ok g) (seed : String) (reverse : Bool)
    (format : OutputFormat) (output : Option Path) :
  (tree seed reverse format output).text t s root
    = ((Query.tree t g root seed (if reverse then .dependents else .dependencies)
      s.hintLimit).ensureFound.mapError .analysis).bind (·.render format)
  := by
  rw [text, analysed]
  rfl

theorem text_graph (analysed : Analysis.references t s root = .ok g) (seed : String)
    (format : OutputFormat) (output : Option Path) :
  (graph (some seed) format output).text t s root
    = ((Seed.findUnit t g root seed s.hintLimit).mapError .analysis).map
      fun identity => (g.reachableView identity).render format
  := by
  rw [text, analysed]
  rfl

theorem text_focusUnits (analysed : Analysis.references t s root = .ok g) (seed : String)
    (rounds : Option Nat) (format : OutputFormat) (output : Option Path) :
  (focus seed rounds .simple format output).text t s root
    = ((Query.focusUnits t g root seed (rounds.getD s.rounds)
      s.hintLimit).ensureFound.mapError .analysis).map (·.render format)
  := by
  simp only [text, analysed]
  rfl

theorem text_focusTypes (analysed : Analysis.types t s root = .ok catalog) (seed : String)
    (rounds : Option Nat) (format : OutputFormat) (output : Option Path) :
  (focus seed rounds .ast format output).text t s root
    = ((Query.focusTypes t catalog (catalog.resolver s.tieBreak) root seed (rounds.getD s.rounds)
      s.hintLimit).ensureFound.mapError .analysis).map (·.render format)
  := by
  simp only [text, analysed]
  rfl

end Analysed

/-- A seed that names nothing is reported with the first identities that are known. -/
theorem text_of_misses (h : c.Misses t s root seed known) :
  c.text t s root = .error (.analysis (.seedNotFound seed (known.take s.hintLimit)))
  := by
  cases h with
  | tree analysed nameless =>
    have failed := Seed.ensureFound_of_error (Seed.findUnit_of_nameless nameless s.hintLimit)
    rw [text_tree analysed, failed.1]
    rfl
  | graph analysed nameless =>
    rw [text_graph analysed, Seed.findUnit_of_nameless nameless]
    rfl
  | focusUnits analysed nameless =>
    have failed := Seed.ensureFound_of_error (Seed.findUnit_of_nameless nameless s.hintLimit)
    rw [text_focusUnits analysed, failed.2]
    rfl
  | focusTypes analysed nameless =>
    rw [text_focusTypes analysed,
      Seed.focusTypes_of_error (Seed.findType_of_nameless nameless s.hintLimit)]
    rfl

/-- Unless a tree is to be drawn as a diagram, there is a text if the seed names something. -/
theorem exists_text (directory : t.isDirectory root = true)
    (found : ∀ seed known, ¬ c.Misses t s root seed known) (drawable : c.isTreeAsDiagram = false) :
  ∃ text, c.text t s root = .ok text
  := by
  obtain ⟨⟨g, references⟩, catalog, types⟩ := Analysis.exists_ok directory s
  cases c with
  | tree seed reverse format output =>
    obtain ⟨x, named⟩ := Seed.exists_findUnit (fun h => found _ _ (.tree references h)) s.hintLimit
    obtain ⟨a, answered, -⟩ := Seed.ensureFound_tree_of_ok named
      (if reverse then .dependents else .dependencies)
    rw [text_tree references, answered]
    cases format with
    | dot => contradiction
    | json => exact ⟨_, rfl⟩
    | text => exact ⟨_, rfl⟩
  | graph seed format output =>
    cases seed with
    | none => exact ⟨_, by rw [text, references]; rfl⟩
    | some seed =>
      obtain ⟨x, named⟩ :=
        Seed.exists_findUnit (fun h => found _ _ (.graph references h)) s.hintLimit
      rw [text_graph references, named]
      exact ⟨_, rfl⟩
  | classes format output => exact ⟨_, by rw [text, types]; rfl⟩
  | focus seed rounds mode format output =>
    cases mode with
    | ast =>
      obtain ⟨x, named⟩ :=
        Seed.exists_findType (fun h => found _ _ (.focusTypes types h)) s.hintLimit
      rw [text_focusTypes types, Seed.focusTypes_of_ok named]
      exact ⟨_, rfl⟩
    | simple =>
      obtain ⟨x, named⟩ :=
        Seed.exists_findUnit (fun h => found _ _ (.focusUnits references h)) s.hintLimit
      obtain ⟨a, answered, -⟩ := Seed.ensureFound_focusUnits_of_ok named (rounds.getD s.rounds)
      rw [text_focusUnits references, answered]
      exact ⟨_, rfl⟩
  | stats => exact ⟨_, by rw [text, references, types]; rfl⟩

/-- A tree that is to be drawn as a diagram is refused, but only when its seed names something. -/
theorem text_of_isTreeAsDiagram (directory : t.isDirectory root = true)
    (found : ∀ seed known, ¬ c.Misses t s root seed known) (refused : c.isTreeAsDiagram = true) :
  c.text t s root = .error .treeAsDiagram
  := by
  obtain ⟨⟨g, references⟩, -⟩ := Analysis.exists_ok directory s
  cases c with
  | tree seed reverse format output =>
    obtain ⟨x, named⟩ := Seed.exists_findUnit (fun h => found _ _ (.tree references h)) s.hintLimit
    obtain ⟨a, answered, -⟩ := Seed.ensureFound_tree_of_ok named
      (if reverse then .dependents else .dependencies)
    rw [text_tree references, answered]
    cases format with
    | dot => rfl
    | json => contradiction
    | text => contradiction
  | _ => contradiction

/-! ### Carrying out a command -/

/-- All that a command needs is there. -/
structure Succeeds (t : FileTree) (s : Settings) (root : Path) (c : Command) : Prop where
  directory : t.isDirectory root = true
  found : ∀ seed known, ¬ c.Misses t s root seed known
  drawable : c.isTreeAsDiagram = false
  writable : ∀ p, c.output = some p → ∃ place, t.target p = .ok place

/-- The reasons why a command fails although its seed, if it has one, is not at fault. -/
inductive Breaks (t : FileTree) (s : Settings) (root : Path) (c : Command) : Failure → Prop where
  | root (missing : t.isDirectory root = false) :
    Breaks t s root c (.analysis (.rootNotFound root.text))
  | format (directory : t.isDirectory root = true)
      (found : ∀ seed known, ¬ c.Misses t s root seed known) (refused : c.isTreeAsDiagram = true) :
    Breaks t s root c .treeAsDiagram
  | output (directory : t.isDirectory root = true)
      (found : ∀ seed known, ¬ c.Misses t s root seed known) (drawable : c.isTreeAsDiagram = false)
      {p : Path} (output : c.output = some p) {e : FileError} (refused : t.target p = .error e) :
    Breaks t s root c (.analysis (.output e.message))

section Reasons

variable {f : Failure}

theorem Breaks.exitCode (h : c.Breaks t s root f) :
  f.exitCode = 1
  := by
  cases h with
  | root _ => rfl
  | format _ _ _ => rfl
  | output _ _ _ _ _ => rfl

theorem Breaks.not_succeeds (h : c.Breaks t s root f) :
  ¬ c.Succeeds t s root
  := by
  intro succeeds
  cases h with
  | root missing => exact Bool.false_ne_true (missing.symm.trans succeeds.directory)
  | format _ _ refused => exact Bool.false_ne_true (succeeds.drawable.symm.trans refused)
  | output _ _ _ output refused =>
    obtain ⟨place, target⟩ := succeeds.writable _ output
    exact nomatch target.symm.trans refused

theorem Breaks.not_misses (h : c.Breaks t s root f) :
  ¬ c.Misses t s root seed known
  := by
  cases h with
  | root missing => exact fun h => Bool.false_ne_true (missing.symm.trans h.directory)
  | format _ found _ => exact found seed known
  | output _ found _ _ _ => exact found seed known

/-- There is no other way for a command to end: a seed is looked for before the format is refused,
and the text is made before it is written. -/
theorem succeeds_or_misses_or_breaks (t : FileTree) (s : Settings) (root : Path) (c : Command) :
  c.Succeeds t s root ∨ (∃ seed known, c.Misses t s root seed known) ∨ ∃ f, c.Breaks t s root f
  := by
  cases directory : t.isDirectory root with
  | false => exact .inr (.inr ⟨_, .root directory⟩)
  | true =>
    by_cases missed : ∃ seed known, c.Misses t s root seed known
    · exact .inr (.inl missed)
    · push Not at missed
      cases drawable : c.isTreeAsDiagram with
      | true => exact .inr (.inr ⟨_, .format directory missed drawable⟩)
      | false =>
        by_cases writable : ∀ p, c.output = some p → ∃ place, t.target p = .ok place
        · exact .inl ⟨directory, missed, drawable, writable⟩
        · push Not at writable
          obtain ⟨p, output, unwritable⟩ := writable
          cases target : t.target p with
          | ok place => exact absurd target (unwritable place)
          | error e => exact .inr (.inr ⟨_, .output directory missed drawable output target⟩)

end Reasons

theorem exists_emit {output : Option Path}
    (writable : ∀ p, output = some p → ∃ place, t.target p = .ok place) (text : String) :
  ∃ product, emit t text output = .ok product
  := by
  cases output with
  | none => exact ⟨_, rfl⟩
  | some p =>
    obtain ⟨place, target⟩ := writable p rfl
    rw [emit, FileTree.write, target]
    exact ⟨_, rfl⟩

theorem emit_of_error {p : Path} {e : FileError} (refused : t.target p = .error e) (text : String) :
  emit t text (some p) = .error (.output e.message)
  := by
  rw [emit, FileTree.write, refused]
  rfl

section Perform

variable {p : Product}

/-- A command whose text cannot be made puts out nothing. -/
theorem perform_of_text_error {f : Failure} (failed : c.text p.files s root = .error f) :
  c.perform s root p = .error f p
  := by
  change (c.perform s root).run p = _
  rw [perform, EStateM.run_bind, EStateM.run_get]
  simp only [failed]
  rfl

/-- A command whose text cannot be written puts out nothing. -/
theorem perform_of_emit_error {text : String} (ready : c.text p.files s root = .ok text) {e : Error}
    (failed : emit p.files text c.output = .error e) :
  c.perform s root p = .error (.analysis e) p
  := by
  change (c.perform s root).run p = _
  rw [perform, EStateM.run_bind, EStateM.run_get]
  simp only [ready, failed]
  rfl

theorem perform_of_emit {text : String} (ready : c.text p.files s root = .ok text) {product : Product}
    (emitted : emit p.files text c.output = .ok product) :
  c.perform s root p = .ok () ⟨p.printed ++ product.printed, product.files⟩
  := by
  change (c.perform s root).run p = _
  rw [perform, EStateM.run_bind, EStateM.run_get]
  simp only [ready, emitted]
  rfl

theorem perform_of_succeeds (h : c.Succeeds p.files s root) :
  ∃ p', c.perform s root p = .ok () p'
  := by
  obtain ⟨text, ready⟩ := exists_text h.directory h.found h.drawable
  obtain ⟨product, emitted⟩ := exists_emit h.writable text
  exact ⟨_, perform_of_emit ready emitted⟩

/-- Nothing is put out for a seed that names nothing. -/
theorem perform_of_misses (h : c.Misses p.files s root seed known) :
  c.perform s root p = .error (.analysis (.seedNotFound seed (known.take s.hintLimit))) p
  := by
  apply perform_of_text_error (text_of_misses h)

/-- Nothing is put out where a command fails for another reason. -/
theorem perform_of_breaks {f : Failure} (h : c.Breaks p.files s root f) :
  c.perform s root p = .error f p
  := by
  cases h with
  | root missing => apply perform_of_text_error (text_of_missing missing s c)
  | format directory found refused =>
    apply perform_of_text_error (text_of_isTreeAsDiagram directory found refused)
  | output directory found drawable output refused =>
    obtain ⟨text, ready⟩ := exists_text directory found drawable
    apply perform_of_emit_error ready
    rw [output, emit_of_error refused]

end Perform

end Command

/-! ### Runs -/

/-- The lines about a seed that names nothing. The known identities are listed, if there are any. -/
def unknownSeedLines (seed : String) (known : List String) : List String :=
  ("Error: no file or type matches \x27" ++ seed ++ "\x27")
    :: if known = [] then [] else "Available:" :: known.map ("  " ++ ·)

theorem Failure.lines_seedNotFound (seed : String) (hints : List String) :
  Failure.lines (.analysis (.seedNotFound seed hints)) = unknownSeedLines seed hints
  := by
  rw [lines, unknownSeedLines]
  cases hints with
  | nil => rfl
  | cons hint hints => rfl

theorem Failure.exitCode_ne_zero (f : Failure) :
  f.exitCode ≠ 0
  := by
  unfold exitCode
  split
  · decide
  · decide

namespace CommandLine

variable {c : CommandLine} {seed : String} {known : List String} {o : Outcome}

/-- All that is asked for can be done. -/
def Succeeds (t : FileTree) (c : CommandLine) : Prop :=
  ∀ command, c.command = some command → command.Succeeds t (c.settings t) c.root

/-- The command has a seed that names nothing, where the given identities are known. -/
def Misses (t : FileTree) (c : CommandLine) (seed : String) (known : List String) : Prop :=
  ∃ command, c.command = some command ∧ command.Misses t (c.settings t) c.root seed known

theorem Misses.not_succeeds (h : c.Misses t seed known) :
  ¬ c.Succeeds t
  := by
  obtain ⟨command, asked, missed⟩ := h
  exact fun succeeds => (succeeds command asked).found seed known missed

theorem perform_of_command {command : Command} (asked : c.command = some command) (p : Product) :
  c.perform p = command.perform (c.settings p.files) c.root p
  := by
  rw [perform, asked]
  rfl

theorem outcome_of_error {f : Failure} (failed : c.perform ⟨"", t⟩ = .error f ⟨"", t⟩) :
  c.outcome t = .failure ⟨"", t⟩ f
  := by
  rw [outcome, failed]

theorem outcome_of_misses (h : c.Misses t seed known) :
  c.outcome t
    = .failure ⟨"", t⟩ (.analysis (.seedNotFound seed (known.take (c.settings t).hintLimit)))
  := by
  obtain ⟨command, asked, missed⟩ := h
  apply outcome_of_error
  rw [perform_of_command asked]
  apply Command.perform_of_misses missed

/-- A run does what it is asked for, or its seed names nothing, or there is another reason why it
fails. Where it fails nothing is put out. -/
inductive Ends (t : FileTree) (c : CommandLine) : Outcome → Prop where
  | done (succeeds : c.Succeeds t) (p : Product) :
    Ends t c (.success p)
  | missed {seed : String} {known : List String} (unknown : c.Misses t seed known) :
    Ends t c (.failure ⟨"", t⟩
      (.analysis (.seedNotFound seed (known.take (c.settings t).hintLimit))))
  | broken {f : Failure} (fails : ¬ c.Succeeds t) (found : ∀ seed known, ¬ c.Misses t seed known)
      (code : f.exitCode = 1) :
    Ends t c (.failure ⟨"", t⟩ f)

theorem ends_outcome (t : FileTree) (c : CommandLine) :
  c.Ends t (c.outcome t)
  := by
  cases asked : c.command with
  | none =>
    have idle : c.Succeeds t := by
      intro command asked'
      rw [asked] at asked'
      contradiction
    have helped : c.outcome t = .success ⟨"" ++ ("\n" ++ helpText), t⟩ := by
      rw [outcome, perform, asked]
      rfl
    rw [helped]
    apply Ends.done idle
  | some command =>
    have only : ∀ command', c.command = some command' → command' = command :=
      fun command' asked' => Option.some.inj (asked'.symm.trans asked)
    obtain succeeds | ⟨seed, known, missed⟩ | ⟨f, breaks⟩ :=
      command.succeeds_or_misses_or_breaks t (c.settings t) c.root
    · obtain ⟨p, performed⟩ := Command.perform_of_succeeds (p := ⟨"", t⟩) succeeds
      rw [outcome, perform_of_command asked, performed]
      apply Ends.done
      intro command' asked'
      rwa [only command' asked']
    · rw [outcome_of_misses ⟨command, asked, missed⟩]
      apply Ends.missed ⟨command, asked, missed⟩
    · have failed : c.perform ⟨"", t⟩ = .error f ⟨"", t⟩ := by
        rw [perform_of_command asked]
        apply Command.perform_of_breaks breaks
      rw [outcome_of_error failed]
      apply Ends.broken _ _ breaks.exitCode
      · exact fun succeeds => breaks.not_succeeds (succeeds command asked)
      · rintro seed known ⟨command', asked', missed⟩
        rw [only command' asked'] at missed
        exact breaks.not_misses missed

theorem exitCode_eq_zero_iff_perform (t : FileTree) (c : CommandLine) :
  (c.outcome t).exitCode = 0 ↔ ∃ p, c.perform ⟨"", t⟩ = .ok () p
  := by
  rw [outcome]
  cases c.perform ⟨"", t⟩ with
  | ok done p => exact iff_of_true rfl ⟨p, rfl⟩
  | error f p => exact iff_of_false f.exitCode_ne_zero nofun

theorem Ends.exitCode_eq_zero_iff (h : c.Ends t o) :
  o.exitCode = 0 ↔ c.Succeeds t
  := by
  cases h with
  | done succeeds p => exact iff_of_true rfl succeeds
  | missed unknown => exact iff_of_false nofun unknown.not_succeeds
  | @broken f fails _ _ => exact iff_of_false f.exitCode_ne_zero fails

theorem Ends.exitCode_eq_two_iff (h : c.Ends t o) :
  o.exitCode = 2 ↔ ∃ seed known, c.Misses t seed known
  := by
  cases h with
  | done succeeds p =>
    apply iff_of_false nofun
    exact fun ⟨_, _, unknown⟩ => unknown.not_succeeds succeeds
  | missed unknown => exact iff_of_true rfl ⟨_, _, unknown⟩
  | broken _ found code =>
    rw [Outcome.failure, code]
    apply iff_of_false nofun
    exact fun ⟨seed, known, unknown⟩ => found seed known unknown

theorem Ends.exitCode_eq_one_iff (h : c.Ends t o) :
  o.exitCode = 1 ↔ ¬ c.Succeeds t ∧ ∀ seed known, ¬ c.Misses t seed known
  := by
  cases h with
  | done succeeds p => exact iff_of_false nofun fun h => h.1 succeeds
  | missed unknown => exact iff_of_false nofun fun h => h.2 _ _ unknown
  | broken fails found code => exact iff_of_true code ⟨fails, found⟩

theorem Ends.unchanged (h : c.Ends t o) (failed : o.exitCode ≠ 0) :
  o.printed = "" ∧ o.files = t
  := by
  cases h with
  | done _ _ => contradiction
  | missed _ => exact ⟨rfl, rfl⟩
  | broken _ _ _ => exact ⟨rfl, rfl⟩

theorem reported_of_misses (h : c.Misses t seed known) :
  Increasing known
    ∧ (c.outcome t).reported = String.join ((unknownSeedLines seed
      (known.take (c.settings t).hintLimit)).map (· ++ "\n"))
  := by
  rw [outcome_of_misses h, Outcome.failure, Failure.report, Failure.lines_seedNotFound]
  obtain ⟨command, -, missed⟩ := h
  exact ⟨missed.increasing, rfl⟩

end CommandLine

/-- The exit code of a run whose command line is understood tells how it ended: it is 0 exactly if all
that is asked for is done, which is when all of it can be done, 2 exactly if what is there was analysed
and the seed of the command names nothing in it, and 1 in all other cases. For a seed that names
nothing the first known identities are listed, in order. A run that fails has printed nothing, and the
files are as they were, also where it fails only after the analysis. -/
theorem exitCode_tells_reason (t : FileTree) {words : List String} {c : CommandLine}
    (understood : CommandLine.parse words = .ok c) :
  let o := run t words
  (o.exitCode = 0 ↔ ∃ p, c.perform ⟨"", t⟩ = .ok () p)
    ∧ (o.exitCode = 0 ↔ c.Succeeds t)
    ∧ (o.exitCode = 2 ↔ ∃ seed known, c.Misses t seed known)
    ∧ (o.exitCode = 1 ↔ ¬ c.Succeeds t ∧ ∀ seed known, ¬ c.Misses t seed known)
    ∧ (∀ seed known, c.Misses t seed known → Increasing known
      ∧ o.reported = String.join ((unknownSeedLines seed
        (known.take (c.settings t).hintLimit)).map (· ++ "\n")))
    ∧ (o.exitCode ≠ 0 → o.printed = "" ∧ o.files = t)
  := by
  have outcome : run t words = c.outcome t := by rw [run, understood]
  have ends := c.ends_outcome t
  rw [outcome]
  exact ⟨c.exitCode_eq_zero_iff_perform t, ends.exitCode_eq_zero_iff, ends.exitCode_eq_two_iff,
    ends.exitCode_eq_one_iff, fun seed known h => CommandLine.reported_of_misses h, ends.unchanged⟩

/-- The seed names nothing, and the file that the tree was to go to is as it was. -/
theorem exitCode_tells_unknown_seed :
  let t : FileTree := { entries := [(["Main.java"], .file [])] }
  let words := ["tree", "Other", "-f", "dot", "-o", "Main.java"]
  let c : CommandLine := { command := some (.tree "Other" false .dot (some ⟨"Main.java"⟩)) }
  CommandLine.parse words = .ok c
    ∧ (run t words).exitCode = 2 ∧ (∃ seed known, c.Misses t seed known)
    ∧ (run t words).printed = "" ∧ (run t words).files = t
  := by
  intro t words c
  have understood : CommandLine.parse words = .ok c := by rfl
  have exit : (run t words).exitCode = 2 := by decide +kernel
  obtain ⟨-, -, unknown, -, -, unchanged⟩ := exitCode_tells_reason t understood
  refine ⟨understood, exit, unknown.mp exit, unchanged ?_⟩
  rw [exit]
  decide

end SourceAtlas
