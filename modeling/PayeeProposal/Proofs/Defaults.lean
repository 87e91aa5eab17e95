import PayeeProposal.Config
import PayeeProposal.Proofs.Blank
import PayeeProposal.Proofs.Settings

/-!
# Defaults of the configuration

The configuration is nine settings, and each of them is at what the document writes for it or at
its default, whatever is written for the others. A section that is left out, one that is left empty
and one that spells its defaults out are all the same, and where there is no file the configuration
is that of an empty document.
-/

namespace PayeeProposal

open Yaml (Document Setting Plan Slot Follows Leads Members SaysText SaysOptional SaysTruth
  SaysSmall)

/-! ## Logging -/

namespace LoggingConfig

/-- The fields of the section. -/
inductive Field where
  | level
  | asJson
  | offsetHours
deriving DecidableEq, Inhabited

/-- What a field holds. -/
def Field.Value : Field → Type
  | .level => String
  | .asJson => Bool
  | .offsetHours => Int

/-- How the section is read. -/
def fields : Yaml.Fields Field Field.Value member where
  name
    | .level => "level"
    | .asJson => "json"
    | .offsetHours => "timezone_offset_hours"
  reader
    | .level => Yaml.Reader.text
    | .asJson => Yaml.Reader.boolean
    | .offsetHours => Yaml.Reader.smallInteger
  parts := {
    toFun := fun p => fun
      | .level => p.level
      | .asJson => p.asJson
      | .offsetHours => p.offsetHours
    invFun := fun y => ⟨y .level, y .asJson, y .offsetHours⟩
    left_inv := fun _ => rfl
    right_inv := fun _ => funext fun i => by cases i <;> rfl }
  name_inj := by
    intro i j h
    cases i <;> cases j <;> simp at h ⊢
  known := by
    intro i p
    cases i <;> rfl
  unknown := by
    intro key p h
    rw [member, if_neg (h .level), if_neg (h .asJson), if_neg (h .offsetHours)]

/-- How the section is made of its fields. -/
def plan : Plan fields {} complete where
  order := [.level, .asJson, .offsetHours]
  slot
    | .level => .single defaultLevel Yaml.Reader.text_eq_some_iff
    | .asJson => .single false Yaml.Reader.boolean_eq_some_iff
    | .offsetHours => .single defaultOffsetHours Yaml.Reader.smallInteger_eq_some_iff
  part
    | .level => level
    | .asJson => asJson
    | .offsetHours => offsetHours
  mem_order := by
    intro i
    cases i <;> simp
  free := by
    intro i
    cases i <;> rfl
  part_complete := by
    intro p i
    cases i <;> rfl

end LoggingConfig

/-! ## The node, the key and logging -/

namespace GlobalConfig

/-- How the section on the wallet is read: the key is its only field. -/
def walletFields : Yaml.Fields Unit (fun _ => String) walletMember where
  name := fun _ => "private_key"
  reader := fun _ => Yaml.Reader.text
  parts := ⟨fun p _ => p, fun y => y (), fun _ => rfl, fun _ => rfl⟩
  name_inj := fun _ _ _ => rfl
  known := fun _ _ => rfl
  unknown := by
    intro key p h
    rw [walletMember, if_neg (h ())]

/-- How the section on the wallet is made of its field. -/
def walletPlan : Plan walletFields none (fun p => p.getD "") where
  order := [()]
  slot := fun _ => .single "" Yaml.Reader.text_eq_some_iff
  part := fun _ key => key
  mem_order := by simp
  free := fun _ => rfl
  part_complete := fun _ _ => rfl

/-- A node says an address of a node: a text without the blanks around it, or none if the text is
missing or blank. -/
inductive SaysUrl (d : Document) (n : Yaml.Node) : Option String → Prop
  | unset {o : Option String} (h : SaysOptional d n o)
    (hblank : ∀ t, o = some t → Text.allBlank t = true) : SaysUrl d n none
  | set {t : String} (h : SaysOptional d n (some t)) (hset : Text.allBlank t = false) :
    SaysUrl d n (some (Text.trim t))

theorem urlReader_eq_some_iff {d : Document} {n : Yaml.Node} {url : Option String} :
    urlReader d n = some url ↔ SaysUrl d n url := by
  constructor
  · intro h
    obtain ⟨o, ho, rfl⟩ := Option.map_eq_some_iff.mp h
    rw [Yaml.Reader.optionalText_eq_some_iff] at ho
    cases hset : o.bind Text.unlessBlank with
    | none =>
      refine .unset ho ?_
      rintro t rfl
      simpa [Text.unlessBlank] using hset
    | some t =>
      obtain ⟨t, rfl, ht⟩ := Option.bind_eq_some_iff.mp hset
      obtain ⟨rfl, hblank⟩ := Text.unlessBlank_eq_some_iff.mp ht
      exact .set ho hblank
  · intro h
    cases h with
    | @unset o h hblank =>
      refine Option.map_eq_some_iff.mpr ⟨o, Yaml.Reader.optionalText_eq_some_iff.mpr h, ?_⟩
      cases o with
      | none => rfl
      | some t => simp [Text.unlessBlank, hblank t rfl]
    | set h hset =>
      refine Option.map_eq_some_iff.mpr ⟨_, Yaml.Reader.optionalText_eq_some_iff.mpr h, ?_⟩
      rw [Option.bind_some, Text.unlessBlank_eq_some_iff.mpr ⟨rfl, hset⟩, Option.map_some]

/-- The fields of the section. -/
inductive Field where
  | rpcUrl
  | commitment
  | wallet
  | logging
deriving DecidableEq, Inhabited

/-- What a field holds. -/
def Field.Value : Field → Type
  | .rpcUrl => Option String
  | .commitment => String
  | .wallet => String
  | .logging => LoggingConfig

/-- How the section is read. -/
def fields : Yaml.Fields Field Field.Value member where
  name
    | .rpcUrl => "rpc_url"
    | .commitment => "commitment"
    | .wallet => "wallet"
    | .logging => "logging"
  reader
    | .rpcUrl => urlReader
    | .commitment => Yaml.Reader.text
    | .wallet => walletReader
    | .logging => LoggingConfig.reader
  parts := {
    toFun := fun p => fun
      | .rpcUrl => p.rpcUrl
      | .commitment => p.commitment
      | .wallet => p.privateKey
      | .logging => p.logging
    invFun := fun y => ⟨y .rpcUrl, y .commitment, y .wallet, y .logging⟩
    left_inv := fun _ => rfl
    right_inv := fun _ => funext fun i => by cases i <;> rfl }
  name_inj := by
    intro i j h
    cases i <;> cases j <;> simp at h ⊢
  known := by
    intro i p
    cases i <;> rfl
  unknown := by
    intro key p h
    rw [member, if_neg (h .rpcUrl), if_neg (h .commitment), if_neg (h .wallet),
      if_neg (h .logging)]

/-- How the section is made of its fields. -/
def plan : Plan fields {} complete where
  order := [.rpcUrl, .commitment, .wallet, .logging]
  slot
    | .rpcUrl => .single none urlReader_eq_some_iff
    | .commitment => .single defaultCommitment Yaml.Reader.text_eq_some_iff
    | .wallet => walletPlan.toSlot "" (fun _ => rfl)
    | .logging => LoggingConfig.plan.toSlot {} (by intro i; cases i <;> rfl)
  part
    | .rpcUrl => rpcUrl
    | .commitment => commitment
    | .wallet => privateKey
    | .logging => logging
  mem_order := by
    intro i
    cases i <;> simp
  free := by
    intro i
    cases i <;> rfl
  part_complete := by
    intro p i
    cases i <;> rfl

end GlobalConfig

/-! ## The aggregator program -/

namespace ProgramConfig

/-- The fields of the section. -/
inductive Field where
  | programId
  | linkMint
  | descriptionPath
deriving DecidableEq, Inhabited

/-- What a field holds. -/
def Field.Value : Field → Type
  | .programId => String
  | .linkMint => Option String
  | .descriptionPath => Option String

/-- How the section is read. -/
def fields : Yaml.Fields Field Field.Value member where
  name
    | .programId => "program_id"
    | .linkMint => "link_mint"
    | .descriptionPath => "rdd_path"
  reader
    | .programId => Yaml.Reader.text
    | .linkMint => Yaml.Reader.optionalText
    | .descriptionPath => Yaml.Reader.optionalText
  parts := {
    toFun := fun p => fun
      | .programId => p.programId
      | .linkMint => p.linkMint
      | .descriptionPath => p.descriptionPath
    invFun := fun y => ⟨y .programId, y .linkMint, y .descriptionPath⟩
    left_inv := fun _ => rfl
    right_inv := fun _ => funext fun i => by cases i <;> rfl }
  name_inj := by
    intro i j h
    cases i <;> cases j <;> simp at h ⊢
  known := by
    intro i p
    cases i <;> rfl
  unknown := by
    intro key p h
    rw [member, if_neg (h .programId), if_neg (h .linkMint), if_neg (h .descriptionPath)]

/-- How the section is made of its fields. -/
def plan : Plan fields {} complete where
  order := [.programId, .linkMint, .descriptionPath]
  slot
    | .programId => .single defaultProgramId Yaml.Reader.text_eq_some_iff
    | .linkMint => .single none Yaml.Reader.optionalText_eq_some_iff
    | .descriptionPath => .single none Yaml.Reader.optionalText_eq_some_iff
  part
    | .programId => programId
    | .linkMint => linkMint
    | .descriptionPath => descriptionPath
  mem_order := by
    intro i
    cases i <;> simp
  free := by
    intro i
    cases i <;> rfl
  part_complete := by
    intro p i
    cases i <;> rfl

end ProgramConfig

/-! ## The whole configuration -/

namespace Config

/-- The sections at the top. -/
inductive Field where
  | global
  | program
deriving DecidableEq, Inhabited

/-- What a section holds. -/
def Field.Value : Field → Type
  | .global => GlobalConfig
  | .program => ProgramConfig

/-- How the configuration is read. -/
def fields : Yaml.Fields Field Field.Value member where
  name
    | .global => "global"
    | .program => "ocr2"
  reader
    | .global => GlobalConfig.reader
    | .program => ProgramConfig.reader
  parts := {
    toFun := fun p => fun
      | .global => p.global
      | .program => p.program
    invFun := fun y => ⟨y .global, y .program⟩
    left_inv := fun _ => rfl
    right_inv := fun _ => funext fun i => by cases i <;> rfl }
  name_inj := by
    intro i j h
    cases i <;> cases j <;> simp at h ⊢
  known := by
    intro i p
    cases i <;> rfl
  unknown := by
    intro key p h
    rw [member, if_neg (h .global), if_neg (h .program)]

/-- How the configuration is made of its sections. -/
def plan : Plan fields {} complete where
  order := [.global, .program]
  slot
    | .global => GlobalConfig.plan.toSlot {} (by intro i; cases i <;> rfl)
    | .program => ProgramConfig.plan.toSlot {} (by intro i; cases i <;> rfl)
  part
    | .global => global
    | .program => program
  mem_order := by
    intro i
    cases i <;> simp
  free := by
    intro i
    cases i <;> rfl
  part_complete := by
    intro p i
    cases i <;> rfl

/-- All settings: where each of them is written, what says it there, and its default. -/
def settings : List (Setting Config) :=
  [⟨Option String, ["global", "rpc_url"], GlobalConfig.SaysUrl, none, fun c => c.global.rpcUrl⟩,
    ⟨String, ["global", "commitment"], SaysText, "confirmed", fun c => c.global.commitment⟩,
    ⟨String, ["global", "wallet", "private_key"], SaysText, "", fun c => c.global.privateKey⟩,
    ⟨String, ["global", "logging", "level"], SaysText, "info", fun c => c.global.logging.level⟩,
    ⟨Bool, ["global", "logging", "json"], SaysTruth, false, fun c => c.global.logging.asJson⟩,
    ⟨Int, ["global", "logging", "timezone_offset_hours"], SaysSmall, 0,
      fun c => c.global.logging.offsetHours⟩,
    ⟨String, ["ocr2", "program_id"], SaysText, "cjg3oHmg9uuPsP8D6g29NWvhySJkdYdAo9D25PRbKXJ",
      fun c => c.program.programId⟩,
    ⟨Option String, ["ocr2", "link_mint"], SaysOptional, none, fun c => c.program.linkMint⟩,
    ⟨Option String, ["ocr2", "rdd_path"], SaysOptional, none,
      fun c => c.program.descriptionPath⟩]

theorem follows_settings : Follows reader settings :=
  -- the table is what the plans of all sections come to
  plan.follows_all

/-- A configuration is nothing but its settings. -/
theorem ext_settings {c c' : Config} (h : ∀ x ∈ settings, x.get c = x.get c') : c = c' := by
  obtain ⟨⟨url, commitment, key, ⟨level, asJson, offset⟩⟩, ⟨program, mint, description⟩⟩ := c
  obtain ⟨⟨url', commitment', key', ⟨level', asJson', offset'⟩⟩,
    ⟨program', mint', description'⟩⟩ := c'
  simp only [settings, List.forall_mem_cons] at h
  obtain ⟨hurl, hcommitment, hkey, hlevel, hjson, hoffset, hprogram, hmint, hdescription, -⟩ := h
  subst hurl hcommitment hkey hlevel hjson hoffset hprogram hmint hdescription
  rfl

theorem get_default : ∀ x ∈ settings, x.get {} = x.fallback :=
  plan.get_of_parts (by intro i; cases i <;> rfl)

/-! ### Sections -/

/-- The paths to the sections, the whole document among them. -/
def sections : List (List String) :=
  [[], ["global"], ["global", "wallet"], ["global", "logging"], ["ocr2"]]

/-- A document leaves a section at its defaults: it leaves the section out, leaves it empty or
spells out the default of each of its settings. -/
inductive AtDefaults (d : Document) (place : List String) : Prop
  | absent (h : Leads d d.top place none)
  | empty {m : Yaml.Node} (h : Leads d d.top place (some m)) (hm : Members d m [])
  | spelled (h : ∀ x ∈ settings, place <+: x.path → x.Written d d.top (some x.fallback))

/-- A section is no setting. -/
theorem path_ne_of_mem_sections {place : List String} (hplace : place ∈ sections) :
    ∀ x ∈ settings, x.path ≠ place := by
  have hpaths : ∀ place ∈ sections, ∀ path ∈ settings.map Setting.path, path ≠ place := by decide
  intro x hx
  exact hpaths place hplace _ (List.mem_map_of_mem hx)

variable {d d' : Document} {place : List String}

/-- Each setting of a section at its defaults is either absent or written as its default. -/
theorem AtDefaults.written (h : AtDefaults d place) (hplace : place ∈ sections)
    {x : Setting Config} (hx : x ∈ settings) (hpath : place <+: x.path) :
    ∃ o, x.Written d d.top o ∧ o.getD x.fallback = x.fallback := by
  obtain ⟨rest, hrest⟩ := hpath
  cases h with
  | absent h => exact ⟨none, ⟨none, hrest ▸ h.nowhere_append, .none⟩, rfl⟩
  | empty h hm =>
    cases rest with
    | nil =>
      rw [List.append_nil] at hrest
      exact absurd hrest.symm (path_ne_of_mem_sections hplace x hx)
    | cons name rest =>
      exact ⟨none, ⟨none, hrest ▸ h.append (.nowhere hm rfl), .none⟩, rfl⟩
  | spelled h => exact ⟨_, h x hx ⟨rest, hrest⟩, rfl⟩

/-! ### Loading -/

/-- A document is what a configuration is loaded from: it is in the file that is named or, if none
is, in the first of the usual files that is there. -/
inductive Found (files : Files) (d : Document) : Option String → Prop
  | named {path s : String} (hs : files.readText path = .ok s) (hd : Document.parse? s = some d) :
    Found files d (some path)
  | usual {path s : String} {before after : List String}
    (hpath : usualPaths = before ++ path :: after)
    (habsent : ∀ p ∈ before, files.exists? p = false) (hs : files.readText path = .ok s)
    (hd : Document.parse? s = some d) : Found files d none

/-- Wherever a document is found, this configuration is loaded from it. -/
structure Loaded (d : Document) (c : Config) : Prop where
  document : ofDocument d = some c
  file : ∀ files path, Found files d path → load files path = .ok c

theorem exists?_of_readText {files : Files} {path s : String} (h : files.readText path = .ok s) :
    files.exists? path = true := by
  unfold Files.readText at h
  unfold Files.exists?
  split at h
  · cases h
  · rename_i hpath
    rw [hpath]
  · rename_i hpath
    rw [hpath]

theorem loaded_of_document {c : Config} (h : ofDocument d = some c) : Loaded d c where
  document := h
  file := by
    intro files path hfound
    have hread {path s : String} (hs : files.readText path = .ok s)
        (hd : Document.parse? s = some d) : read files path = .ok c := by
      have hyaml : ofYaml s = some c := by rw [ofYaml, Yaml.Reader.parse, hd]; exact h
      simp only [read, hs, hyaml]
    cases hfound with
    | named hs hd => rw [load, if_pos (exists?_of_readText hs), hread hs hd]
    | usual hpath habsent hs hd =>
      have hfind : usualPaths.find? files.exists? = some _ :=
        List.find?_eq_some_iff_append.mpr
          ⟨exists?_of_readText hs, _, _, hpath, fun p hp => by simp [habsent p hp]⟩
      simp only [load, hfind, hread hs hd]

/-- A document of which each setting is written in some way or absent is loaded, with each setting
at what is written or at its default. -/
theorem exists_loaded (h : ∀ x ∈ settings, ∃ o, x.Written d d.top o) :
    ∃ c, Loaded d c ∧ ∀ x ∈ settings, ∀ o, x.Written d d.top o → x.get c = o.getD x.fallback := by
  obtain ⟨c, hc⟩ := follows_settings.reads d d.top h
  exact ⟨c, loaded_of_document hc, follows_settings.holds d d.top c hc⟩

/-- Documents that agree on all settings, as far as they are not at their defaults, load the
same. -/
theorem exists_loaded_both
    (h : ∀ x ∈ settings, ∃ o o', x.Written d d.top o ∧ x.Written d' d'.top o' ∧
      o.getD x.fallback = o'.getD x.fallback) : ∃ c, Loaded d c ∧ Loaded d' c := by
  obtain ⟨c, hc, hget⟩ := exists_loaded fun x hx =>
    let ⟨o, _, ho, _⟩ := h x hx
    ⟨o, ho⟩
  obtain ⟨c', hc', hget'⟩ := exists_loaded fun x hx =>
    let ⟨_, o', _, ho', _⟩ := h x hx
    ⟨o', ho'⟩
  have heq : c = c' := by
    apply ext_settings
    intro x hx
    obtain ⟨o, o', ho, ho', hoo'⟩ := h x hx
    rw [hget x hx o ho, hget' x hx o' ho', hoo']
  exact ⟨c, hc, heq ▸ hc'⟩

theorem load_of_absent {files : Files} (h : ∀ p ∈ usualPaths, files.exists? p = false) :
    load files none = .ok {} := by
  have hfind : usualPaths.find? files.exists? = none :=
    List.find?_eq_none.mpr fun p hp => by simp [h p hp]
  simp only [load, hfind]

/-- An empty document is loaded with all defaults. -/
theorem loaded_of_empty (h : Members d d.top []) : Loaded d {} := by
  have hdefaults : AtDefaults d [] := .empty .here h
  have hplace : [] ∈ sections := by simp [sections]
  obtain ⟨c, hc, hget⟩ := exists_loaded fun x hx =>
    let ⟨o, ho, _⟩ := hdefaults.written hplace hx List.nil_prefix
    ⟨o, ho⟩
  have heq : c = {} := by
    apply ext_settings
    intro x hx
    obtain ⟨o, ho, hfallback⟩ := hdefaults.written hplace hx List.nil_prefix
    rw [hget x hx o ho, hfallback, get_default x hx]
  exact heq ▸ hc

/-- Each setting is filled in on its own. A document is loaded if each of them is written in some
way or absent, each record on the way to it having texts for keys and the next name once at most,
and no other document is; in what is loaded, each setting is at what is written for it or, if it is
absent, at its default, whatever else is in the document. So it makes no difference whether a
section is left out, left empty or spelled out with its defaults; and without a file the
configuration is that of an empty document. -/
theorem load_fills_defaults :
    (∀ d : Document, (∀ x ∈ settings, ∃ o, x.Written d d.top o) →
        ∃ c, Loaded d c ∧
          ∀ x ∈ settings, ∀ o, x.Written d d.top o → x.get c = o.getD x.fallback) ∧
      (∀ d c, ofDocument d = some c → ∀ x ∈ settings, ∃ o, x.Written d d.top o) ∧
      (∀ d d' : Document, ∀ place ∈ sections, AtDefaults d place → AtDefaults d' place →
        (∀ x ∈ settings, ¬ place <+: x.path → ∃ o, x.Written d d.top o ∧ x.Written d' d'.top o) →
        ∃ c, Loaded d c ∧ Loaded d' c) ∧
      ∀ files d, (∀ p ∈ usualPaths, files.exists? p = false) → Members d d.top [] →
        ∃ c, load files none = .ok c ∧ Loaded d c := by
  refine ⟨fun d h => exists_loaded h, fun d c hc => follows_settings.written d d.top c hc, ?_, ?_⟩
  · intro d d' place hplace h h' hothers
    apply exists_loaded_both
    intro x hx
    -- in the section both are at the default, outside of it the same is written
    by_cases hpath : place <+: x.path
    · obtain ⟨o, ho, hfallback⟩ := h.written hplace hx hpath
      obtain ⟨o', ho', hfallback'⟩ := h'.written hplace hx hpath
      exact ⟨o, o', ho, ho', hfallback.trans hfallback'.symm⟩
    · obtain ⟨o, ho, ho'⟩ := hothers x hx hpath
      exact ⟨o, o, ho, ho', rfl⟩
  · intro files d habsent hempty
    exact ⟨{}, load_of_absent habsent, loaded_of_empty hempty⟩

/-- In a section that is there, what is not written is at its default. -/
example : ofYaml "other: [1]\nglobal:\n  rpc_url: ' '\n  logging: \x7bjson: true\x7d\n" =
    some { global := { logging := { asJson := true } } } := by
  decide +kernel

/-- A scalar of a plain word. -/
def word (s : String) : Yaml.Node :=
  .scalar ⟨none, .plain, s⟩

theorem saysText_word {d : Document} (s : String) : SaysText d (word s) s :=
  SaysText.scalar (rfl : d.resolve (word s) = some (.scalar ⟨none, .plain, s⟩))

/-- A document with a commitment, and other entries behind it in the same section. -/
def documentWith (entries : List (Yaml.Node × Yaml.Node)) : Document :=
  ⟨some (.mapping [(word "global", .mapping ((word "commitment", word "finalized") :: entries))]),
    []⟩

/-- A section on logging that spells out the defaults, in another order and another spelling. -/
def spelledLogging : List (Yaml.Node × Yaml.Node) :=
  [(word "timezone_offset_hours", word "+0x0"), (word "level", word "info"),
    (word "json", word "FALSE")]

/-- It makes no difference whether the section on logging is left out or spelled out. -/
theorem load_fills_defaults_logging :
    ∃ c, Loaded (documentWith []) c ∧
      Loaded (documentWith [(word "logging", .mapping spelledLogging)]) c := by
  have hroot (entries : List (Yaml.Node × Yaml.Node)) :
      Members (documentWith entries) (documentWith entries).top [("global", .mapping
        ((word "commitment", word "finalized") :: entries))] :=
    .mapping rfl (.cons ⟨saysText_word _, rfl⟩ .nil)
  have hshort {d : Document} : Members d (.mapping [(word "commitment", word "finalized")])
      [("commitment", word "finalized")] :=
    .mapping rfl (.cons ⟨saysText_word _, rfl⟩ .nil)
  have hlong {d : Document} : Members d
      (.mapping [(word "commitment", word "finalized"), (word "logging", .mapping spelledLogging)])
      [("commitment", word "finalized"), ("logging", .mapping spelledLogging)] :=
    .mapping rfl (.cons ⟨saysText_word _, rfl⟩ (.cons ⟨saysText_word _, rfl⟩ .nil))
  have hlogging {d : Document} : Members d (.mapping spelledLogging)
      [("timezone_offset_hours", word "+0x0"), ("level", word "info"), ("json", word "FALSE")] :=
    .mapping rfl (.cons ⟨saysText_word _, rfl⟩
      (.cons ⟨saysText_word _, rfl⟩ (.cons ⟨saysText_word _, rfl⟩ .nil)))
  have hzero : Yaml.Numeral "+0x0".toList 0 := .plus (.based List.mem_cons_self (by simp) rfl)
  refine load_fills_defaults.2.2.1 _ _ ["global", "logging"] (by simp [sections])
    (.absent (.along (hroot []) rfl (.nowhere hshort rfl))) (.spelled ?_) ?_
  all_goals simp only [settings, List.forall_mem_cons]
  · refine ⟨?_, ?_, ?_, ?level, ?json, ?offset, ?_, ?_, ?_, by simp⟩
    case level =>
      exact fun _ => ⟨_, .along (hroot _) rfl (.along hlong rfl (.along hlogging rfl .here)),
        .some (saysText_word _)⟩
    case json =>
      exact fun _ => ⟨_, .along (hroot _) rfl (.along hlong rfl (.along hlogging rfl .here)),
        .some (.no rfl (.plain rfl) (by simp))⟩
    case offset =>
      exact fun _ => ⟨_, .along (hroot _) rfl (.along hlong rfl (.along hlogging rfl .here)),
        .some (.number rfl (.plain rfl) hzero (by decide) (by decide))⟩
    all_goals exact fun hpath => absurd hpath (by decide)
  · refine ⟨?url, ?commitment, ?key, ?_, ?_, ?_, ?program, ?mint, ?description, by simp⟩
    case url | key =>
      exact fun _ => ⟨none, ⟨none, .along (hroot []) rfl (.nowhere hshort rfl), .none⟩,
        ⟨none, .along (hroot _) rfl (.nowhere hlong rfl), .none⟩⟩
    case commitment =>
      exact fun _ => ⟨_,
        ⟨_, .along (hroot []) rfl (.along hshort rfl .here), .some (saysText_word _)⟩,
        ⟨_, .along (hroot _) rfl (.along hlong rfl .here), .some (saysText_word _)⟩⟩
    case program | mint | description =>
      exact fun _ => ⟨none, ⟨none, .nowhere (hroot []) rfl, .none⟩,
        ⟨none, .nowhere (hroot _) rfl, .none⟩⟩
    all_goals exact fun hpath => absurd (by decide) hpath

end Config

end PayeeProposal
