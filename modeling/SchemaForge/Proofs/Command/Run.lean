import SchemaForge.Command.Run
import SchemaForge.Proofs.Command.Options
import SchemaForge.Proofs.Files.Retention
import SchemaForge.Proofs.Json.RoundTrip
import SchemaForge.Proofs.Shape.Reading

/-!
# `SchemaForge.Proofs.Command.Run` — what a command leaves behind

A command that comes to delivering has understood its words, read its inputs and made its module;
`Prepares` says so, and from there on the command is the delivery of its outputs. Any other one leaves
the files alone, and none of these succeeds but the one that only asks for help. Any other command
that succeeds has therefore written the module first and the type helper after it, so both are there
unless they go to one place, and then the module is lost.

The author's text for TypeBox is passed on as it was read, and reading a text unifies its line ends. So
the file that comes out is the file that went in just when that has no carriage return.

## Contents
- **Preparation.** `Prepares`, `delivery`, and `run_cases` for what any run comes to.
- **Success.** `textAt?_run_of_prepares`, the files after a command that succeeds.
- **Both outputs.** `run_delivers_outputs`; `run_loses_module` is a command that delivers one of two.
- **The author's text.** `run_passes_source_on`; `run_changes_source` is a text that comes out changed.
-/

namespace SchemaForge.Command

open Shape (bind_eq_ok_iff)

/-! ## Preparation -/

/-- **Whether a command comes to delivering**: its words are understood, its inputs are read from the
files before it, and its module is made of them. -/
structure Prepares (s : Surroundings) (words : List String) (options : Options) (inputs : Inputs)
    (module : String) : Prop where
  /-- The words are understood. -/
  understood : Options.ofWords? s words = some options
  /-- The inputs are read. -/
  read : Inputs.read s.tree options = .ok inputs
  /-- The module is made. -/
  made : (Module.ofSchema options.dialect inputs.settings inputs.source? inputs.schema).outcome
    = .ok module

/-- The delivery of a command. -/
def delivery (s : Surroundings) (options : Options) (inputs : Inputs) (module : String) : Attempt :=
  s.tree.deliver { overwrite := options.force } (outputs options inputs module)

variable {s : Surroundings} {words : List String} {options : Options} {inputs : Inputs}
  {module : String}

theorem status_failed (failure : Failure) : (Outcome.failed failure).status ≠ 0 :=
  show (1 : UInt32) ≠ 0 by decide

theorem status_misused : Outcome.misused.status ≠ 0 := show (2 : UInt32) ≠ 0 by decide

/-- A command that comes to delivering leaves what its delivery leaves, and succeeds when that does. -/
theorem run_of_prepares (h : Prepares s words options inputs module) :
    (run s words).tree = (delivery s options inputs module).tree ∧
      ((run s words).outcome.status = 0 ↔ (delivery s options inputs module).failure? = none) := by
  obtain ⟨hunderstood, hread, hmade⟩ := h
  rw [run, hunderstood]
  dsimp only
  rw [hread]
  dsimp only
  rw [carryOut, hmade]
  dsimp only
  rw [← delivery]
  cases (delivery s options inputs module).failure? with
  | none => exact ⟨rfl, iff_of_true rfl rfl⟩
  | some error => exact ⟨rfl, iff_of_false (status_failed _) nofun⟩

/-- **What a run comes to**: a delivery, or nothing, which is a success only for help. -/
theorem run_cases (s : Surroundings) (words : List String) :
    (∃ options inputs module, Prepares s words options inputs module) ∨
      ((run s words).outcome.status = 0 → asksForHelp words = true) ∧
        (run s words).tree = s.tree := by
  rw [run]
  cases hunderstood : Options.ofWords? s words with
  | none =>
    refine Or.inr ⟨fun h => ?_, rfl⟩
    cases hhelp : asksForHelp words with
    | true => rfl
    | false =>
      rw [hhelp] at h
      exact absurd h status_misused
  | some options =>
    dsimp only
    cases hread : Inputs.read s.tree options with
    | error failure => exact Or.inr ⟨fun h => absurd h (status_failed _), rfl⟩
    | ok inputs =>
      dsimp only
      cases hmade : (Module.ofSchema options.dialect inputs.settings inputs.source?
          inputs.schema).outcome with
      | error failure =>
        rw [carryOut, hmade]
        exact Or.inr ⟨fun h => absurd h (status_failed _), rfl⟩
      | ok module => exact Or.inl ⟨options, inputs, module, hunderstood, hread, hmade⟩

theorem status_of_delivery (h : Prepares s words options inputs module)
    (hdelivery : (delivery s options inputs module).failure? = none) :
    (run s words).outcome.status = 0 :=
  (run_of_prepares h).2.mpr hdelivery

/-- The value in a file is read off its text, where that has no carriage returns. -/
theorem readJson_eq_ok {tree : FileTree} {location : Location} {text : String} {value : Json}
    (htext : tree.textAt? location = some text) (hlines : '\r' ∉ text.toList)
    (hread : Json.read text = .ok value) : readJson tree location = .ok value := by
  have hunified : String.ofList (Text.unifyNewlines text.toList) = text := by
    rw [Text.unifyNewlines_eq_self_iff.mpr hlines, String.ofList_toList]
  have hreadText : readText tree location = .ok text := by
    rw [readText, htext]
    exact congrArg Except.ok hunified
  rw [readJson, hreadText]
  show (Json.read text).mapError Failure.unreadable = .ok value
  rw [hread]
  rfl

/-- The ways to what a command writes do not go up. -/
theorem up_notMem_outputs (hdirectory : Route.up ∉ s.directory)
    (h : Prepares s words options inputs module) :
    ∀ output ∈ outputs options inputs module, Route.up ∉ output.route := by
  obtain ⟨houtput, htypes⟩ := up_notMem_output hdirectory h.understood
  intro output hmem
  rw [outputs] at hmem
  rcases List.mem_cons.mp hmem with rfl | hmem
  · exact houtput
  · cases hlocation : options.typesOutput? with
    | none =>
      rw [hlocation] at hmem
      cases hmem
    | some location =>
      rw [hlocation] at hmem
      obtain rfl := List.mem_singleton.mp hmem
      exact htypes location hlocation

/-! ## Success -/

/-- **The files after a command that succeeds**: those before it and its outputs. -/
theorem textAt?_run_of_prepares (hdirectory : Route.up ∉ s.directory)
    (hprepares : Prepares s words options inputs module) (h : (run s words).outcome.status = 0) :
    (run s words).tree.textAt?
      = FileTree.textsAfter s.tree.textAt? (outputs options inputs module) := by
  obtain ⟨htree, hsucceeds⟩ := run_of_prepares hprepares
  rw [htree]
  exact FileTree.textAt?_deliver (up_notMem_outputs hdirectory hprepares) (hsucceeds.mp h)

/-- A command that succeeds has come to delivering, or was only asked for help. -/
theorem exists_prepares (h : (run s words).outcome.status = 0) :
    (asksForHelp words = true ∧ (run s words).tree = s.tree) ∨
      ∃ options inputs module, Prepares s words options inputs module := by
  rcases run_cases s words with hprepares | ⟨hhelp, htree⟩
  · exact Or.inr hprepares
  · exact Or.inl ⟨hhelp h, htree⟩

/-- A command of which the options are known was not asked for help. -/
theorem asksForHelp_eq_false (h : Options.ofWords? s words = some options) :
    asksForHelp words = false := by
  unfold Options.ofWords? at h
  split at h
  · cases h
  · next hhelp => exact Bool.eq_false_iff.mpr hhelp

/-- The type helper is written last, so nothing takes its place. -/
theorem textsAfter_types {texts : Texts} {location : Location}
    (h : options.typesOutput? = some location) :
    FileTree.textsAfter texts (outputs options inputs module) location
      = some options.dialect.typesFile := by
  rw [outputs, h, FileTree.textsAfter, List.foldl_cons, List.foldl_cons, List.foldl_nil]
  exact Function.update_self ..

/-- The module is written first, and only the type helper can take its place. -/
theorem textsAfter_module {texts : Texts} (h : options.typesOutput? ≠ some options.output) :
    FileTree.textsAfter texts (outputs options inputs module) options.output = some module := by
  rw [outputs, FileTree.textsAfter, List.foldl_cons]
  cases htypes : options.typesOutput? with
  | none => exact Function.update_self ..
  | some location =>
    have hother : options.output ≠ location := by
      rintro rfl
      exact h htypes
    rw [List.foldl_cons, List.foldl_nil, Function.update_of_ne hother]
    exact Function.update_self ..

/-! ## Both outputs -/

/-- **What a command that succeeds delivers**, unless it was only asked for help. The type helper is
where it was asked for. The module that was made of the files before is at the output, unless the type
helper was to go there too: then the module is lost, if it is not the same text. -/
theorem run_delivers_outputs (hdirectory : Route.up ∉ s.directory)
    (h : (run s words).outcome.status = 0) :
    (asksForHelp words = true ∧ (run s words).tree = s.tree) ∨
      ∃ options inputs module, Prepares s words options inputs module ∧
        ((run s words).tree.textAt? options.output = some module ↔
          options.typesOutput? ≠ some options.output ∨ module = options.dialect.typesFile) ∧
        ∀ location, options.typesOutput? = some location →
          (run s words).tree.textAt? location = some options.dialect.typesFile := by
  refine (exists_prepares h).imp_right ?_
  rintro ⟨options, inputs, module, hprepares⟩
  have htexts := textAt?_run_of_prepares hdirectory hprepares h
  refine ⟨options, inputs, module, hprepares, ?_, ?_⟩
  · rw [htexts]
    by_cases htypes : options.typesOutput? = some options.output
    · rw [textsAfter_types htypes, Option.some.injEq, eq_comm]
      exact (or_iff_right (not_not_intro htypes)).symm
    · exact iff_of_true (textsAfter_module htypes) (Or.inl htypes)
  · intro location hlocation
    rw [htexts, textsAfter_types hlocation]

/-- The shortest text of a schema that is accepted is read. -/
theorem read_emptyObject :
    Json.read "\x7b\"type\":\"object\"\x7d" = .ok (.obj [("type", .str "object")]) := by
  have hchars : "\x7b\"type\":\"object\"\x7d".toList = ['{', '"', 't', 'y', 'p', 'e', '"', ':', '"',
      'o', 'b', 'j', 'e', 'c', 't', '"', '}'] := by decide +kernel
  have hmember : Json.Takes (Json.readMember (some Json.maxIntegerDigits) ['"', 't', 'y', 'p', 'e',
      '"', ':', '"', 'o', 'b', 'j', 'e', 'c', 't', '"', '}']) ("type", .str "object") ['}'] :=
    Json.takes_readMember_key rfl rfl (Json.takes_readValue_str rfl rfl)
  have hobject : Json.Takes (Json.readValue (some Json.maxIntegerDigits) ['{', '"', 't', 'y', 'p',
      'e', '"', ':', '"', 'o', 'b', 'j', 'e', 'c', 't', '"', '}'])
      (.obj [("type", .str "object")]) [] :=
    Json.takes_readValue_obj rfl rfl (by decide) (by decide)
      (Json.takes_readMembers_last hmember rfl)
  obtain ⟨_, hread⟩ := hobject
  rw [Json.read_eq_of_toList hchars, hread]
  rfl

/-- A command with that schema, and no settings of its own, comes to delivering. -/
theorem prepares_emptyObject (source? : Option String)
    (hunderstood : Options.ofWords? s words = some options) (hconfig : options.config? = none)
    (hschema : s.tree.textAt? options.schema = some "\x7b\"type\":\"object\"\x7d")
    (hsource : options.source?.map (readText s.tree) = source?.map .ok)
    (hmade : (Module.ofShape options.dialect {} source? (.object [])).outcome = .ok module) :
    Prepares s words options
      { schema := .obj [("type", .str "object")], settings := {}, source? } module := by
  have hshape : Shape.ofSchema (.obj [("type", .str "object")]) = .ok (.object []) := by
    rw [Shape.ofSchema, Shape.readSchema_type rfl rfl rfl rfl rfl, Shape.readTyped_object rfl,
      Shape.readProperties_absent rfl]
    rfl
  refine ⟨hunderstood, ?_, ?_⟩
  · rw [Inputs.read, readJson_eq_ok hschema (by decide +kernel) read_emptyObject, hconfig]
    cases hlocation : options.source? with
    | none =>
      rw [hlocation, Option.map_none, eq_comm, Option.map_eq_none_iff] at hsource
      rw [hsource]
      rfl
    | some location =>
      rw [hlocation, Option.map_some, eq_comm, Option.map_eq_some_iff] at hsource
      obtain ⟨source, rfl, hread⟩ := hsource
      show (readText s.tree location >>= _) = _
      rw [← hread]
      rfl
  · rw [Module.ofSchema, hshape]
    show Except.mapError _ _ = _
    rw [hmade]
    rfl

/-- A module takes the place of an older one, and the type helper goes into a new directory. -/
theorem run_delivers_outputs_by_force :
    let s : Surroundings := { tree := { members :=
      [("s.json", .file "\x7b\"type\":\"object\"\x7d"), ("o.ts", .file "old")] } }
    let words := ["--force", "s.json", "o.ts", "--types-output", "x/../sub/t.ts"]
    Route.up ∉ s.directory ∧ (run s words).outcome.status = 0 ∧
      asksForHelp words = false ∧
      ∃ options inputs module, Prepares s words options inputs module ∧
        ((run s words).tree.textAt? options.output = some module ↔
          options.typesOutput? ≠ some options.output ∨ module = options.dialect.typesFile) ∧
        ∀ location, options.typesOutput? = some location →
          (run s words).tree.textAt? location = some options.dialect.typesFile := by
  intro s words
  have hdirectory : Route.up ∉ s.directory := List.not_mem_nil
  have hunderstood : Options.ofWords? s words = some ⟨.zod, none, none, some ["sub", "t.ts"], true,
    false, ["s.json"], ["o.ts"]⟩ := rfl
  have hprepares := prepares_emptyObject none hunderstood rfl rfl rfl rfl
  have hstatus := status_of_delivery hprepares (by decide +kernel)
  have hhelp := asksForHelp_eq_false hunderstood
  refine ⟨hdirectory, hstatus, hhelp, (run_delivers_outputs hdirectory hstatus).resolve_left ?_⟩
  rintro ⟨hasked, -⟩
  cases hhelp.symm.trans hasked

/-- **A command that loses its module.** The type helper is to go where the module goes. Nothing is
there when the outputs are checked, so the command succeeds, and in the end only the type helper is
there. -/
theorem run_loses_module :
    let s : Surroundings :=
      { tree := { members := [("s.json", .file "\x7b\"type\":\"object\"\x7d")] } }
    let words := ["s.json", "o.ts", "--types-output", "o.ts"]
    ∃ options inputs module, Prepares s words options inputs module ∧
      (run s words).outcome.status = 0 ∧
      (run s words).tree.textAt? options.output ≠ some module := by
  intro s words
  have hunderstood : Options.ofWords? s words = some ⟨.zod, none, none, some ["o.ts"], false,
    false, ["s.json"], ["o.ts"]⟩ := rfl
  have hprepares := prepares_emptyObject none hunderstood rfl rfl rfl rfl
  have hstatus := status_of_delivery hprepares (by decide +kernel)
  refine ⟨_, _, _, hprepares, hstatus, ?_⟩
  -- The type helper stands there, which is another text.
  rw [textAt?_run_of_prepares List.not_mem_nil hprepares hstatus, textsAfter_types rfl]
  decide +kernel

/-! ## The author's text -/

/-- The author's text for TypeBox is the module. -/
theorem eq_source_of_ofSchema {settings : Settings} {source : String} {schema : Json}
    (h : (Module.ofSchema .typeBox settings (some source) schema).outcome = .ok module) :
    module = source := by
  unfold Module.ofSchema at h
  split at h
  · cases h
  · cases h
    rfl

/-- The author's text is read from its file. -/
theorem source?_of_read {location : Location} (h : Inputs.read s.tree options = .ok inputs)
    (hsource : options.source? = some location) :
    ∃ text, s.tree.textAt? location = some text ∧
      inputs.source? = some (String.ofList (Text.unifyNewlines text.toList)) := by
  rw [Inputs.read, hsource] at h
  obtain ⟨schema, -, h⟩ := bind_eq_ok_iff.mp h
  obtain ⟨settings, -, h⟩ := bind_eq_ok_iff.mp h
  obtain ⟨source, hread, h⟩ := bind_eq_ok_iff.mp h
  cases h
  unfold readText at hread
  split at hread
  · next text htext =>
    cases hread
    exact ⟨text, htext, rfl⟩
  · cases hread

/-- **The author's text comes out as it was read.** Of a command for TypeBox that succeeds, and has
another place for the type helper if it writes one, the output is the author's file with every line
ended by a line feed. So it is that file unchanged just when there is no carriage return in it. -/
theorem run_passes_source_on {location : Location} (hdirectory : Route.up ∉ s.directory)
    (h : (run s words).outcome.status = 0) (hoptions : Options.ofWords? s words = some options)
    (hdialect : options.dialect = .typeBox) (hsource : options.source? = some location)
    (htypes : options.typesOutput? ≠ some options.output) :
    ∃ text, s.tree.textAt? location = some text ∧
      (run s words).tree.textAt? options.output
        = some (String.ofList (Text.unifyNewlines text.toList)) ∧
      ((run s words).tree.textAt? options.output = some text ↔ '\r' ∉ text.toList) := by
  have hhelp := asksForHelp_eq_false hoptions
  obtain ⟨hasked, -⟩ | ⟨_, inputs, module, hprepares⟩ := exists_prepares h
  · cases hhelp.symm.trans hasked
  have htexts := textAt?_run_of_prepares hdirectory hprepares h
  obtain ⟨hunderstood, hread, hmade⟩ := hprepares
  obtain rfl := Option.some.inj (hoptions.symm.trans hunderstood)
  obtain ⟨text, htext, hinputs⟩ := source?_of_read hread hsource
  rw [hdialect, hinputs] at hmade
  have hmodule := eq_source_of_ofSchema hmade
  have houtput : (run s words).tree.textAt? options.output
      = some (String.ofList (Text.unifyNewlines text.toList)) := by
    rw [htexts, textsAfter_module htypes, hmodule]
  refine ⟨text, htext, houtput, ?_⟩
  rw [houtput, Option.some.injEq, ← Text.unifyNewlines_eq_self_iff]
  constructor
  · intro heq
    simpa using congrArg String.toList heq
  · intro heq
    rw [heq, String.ofList_toList]

/-- A text that is no module comes out unchanged. -/
theorem run_passes_source_on_as_is :
    let s : Surroundings := { tree := { members :=
      [("s.json", .file "\x7b\"type\":\"object\"\x7d"), ("raw.ts", .file "a\nb")] } }
    let words := ["-d", "@sinclair/typebox", "--raw-source", "raw.ts", "s.json", "o.ts"]
    ∃ options : Options, Route.up ∉ s.directory ∧ (run s words).outcome.status = 0 ∧
      Options.ofWords? s words = some options ∧ options.dialect = .typeBox ∧
      options.source? = some ["raw.ts"] ∧ options.typesOutput? ≠ some options.output ∧
      ∃ text, s.tree.textAt? ["raw.ts"] = some text ∧
        (run s words).tree.textAt? options.output
          = some (String.ofList (Text.unifyNewlines text.toList)) ∧
        ((run s words).tree.textAt? options.output = some text ↔ '\r' ∉ text.toList) := by
  intro s words
  have hdirectory : Route.up ∉ s.directory := List.not_mem_nil
  have hunderstood : Options.ofWords? s words = some ⟨.typeBox, none, some ["raw.ts"], none, false,
    false, ["s.json"], ["o.ts"]⟩ := rfl
  have hread : readText s.tree ["raw.ts"] = .ok "a\nb" := congrArg Except.ok (by decide +kernel)
  have hprepares := prepares_emptyObject (some "a\nb") hunderstood rfl rfl (congrArg some hread) rfl
  have hstatus := status_of_delivery hprepares (by decide +kernel)
  exact ⟨_, hdirectory, hstatus, hunderstood, rfl, rfl, nofun,
    run_passes_source_on hdirectory hstatus hunderstood rfl rfl nofun⟩

/-- **A text that comes out changed**: of the two characters that end its line one is left. -/
theorem run_changes_source :
    let s : Surroundings := { tree := { members :=
      [("s.json", .file "\x7b\"type\":\"object\"\x7d"), ("raw.ts", .file "a\r\nb")] } }
    let words := ["-d", "@sinclair/typebox", "--raw-source", "raw.ts", "s.json", "o.ts"]
    ∃ options : Options, Options.ofWords? s words = some options ∧ options.dialect = .typeBox ∧
      options.source? = some ["raw.ts"] ∧ options.typesOutput? ≠ some options.output ∧
      (run s words).outcome.status = 0 ∧
      (run s words).tree.textAt? options.output ≠ s.tree.textAt? ["raw.ts"] := by
  intro s words
  have hunderstood : Options.ofWords? s words = some ⟨.typeBox, none, some ["raw.ts"], none, false,
    false, ["s.json"], ["o.ts"]⟩ := rfl
  have hread : readText s.tree ["raw.ts"] = .ok "a\nb" := congrArg Except.ok (by decide +kernel)
  have hprepares := prepares_emptyObject (some "a\nb") hunderstood rfl rfl (congrArg some hread) rfl
  have hstatus := status_of_delivery hprepares (by decide +kernel)
  refine ⟨_, hunderstood, rfl, rfl, nofun, hstatus, ?_⟩
  rw [textAt?_run_of_prepares List.not_mem_nil hprepares hstatus, textsAfter_module (by nofun)]
  decide +kernel

end SchemaForge.Command
