import PayeeProposal.Command
import PayeeProposal.Proofs.Defaults
import PayeeProposal.Proofs.Parameters

/-!
# Settings with more than one source

The address of the node, the key and the mint may each come from one of several sources. For the
node and the key the first source that holds more than blanks decides, whatever the later ones
hold; a configuration that has been loaded never holds a blank address of a node. For the mint a
source that is there hides the later ones even if it is blank, so the same holds of it only as far
as the sources in front of the first one with more than blanks are absent.
-/

namespace PayeeProposal

open Parameters (Lacking lacking_iff)

/-! ## Sources -/

namespace Sources

/-- The source at a place is the first one that holds more than blanks, and this is its text. -/
structure First (sources : List (Option String)) (i : Nat) (s : String) : Prop where
  given : sources[i]? = some (some s)
  set : Text.allBlank s = false
  before : ∀ j < i, ∀ source, sources[j]? = some source → Lacking source

/-- No source holds more than blanks. -/
def Unset (sources : List (Option String)) : Prop :=
  ∀ source ∈ sources, Lacking source

/-- There is no source in front of a place. -/
def AbsentBefore (sources : List (Option String)) (i : Nat) : Prop :=
  ∀ j < i, sources[j]? = some none

/-- How sources decide a setting: what comes of it when one of them is the first that holds more
than blanks, and what when there is none; one of the two is always so. -/
structure Decide (sources : List (Option String)) (used : Nat → String → Prop) (unset : Prop) :
    Prop where
  either : (∃ i s, First sources i s) ∨ Unset sources
  used : ∀ i s, First sources i s → used i s
  unset : Unset sources → unset

variable {source : Option String} {sources : List (Option String)} {i : Nat} {s : String}

theorem first_zero_iff :
    First (source :: sources) 0 s ↔ source = some s ∧ Text.allBlank s = false := by
  constructor
  · rintro ⟨hgiven, hset, -⟩
    exact ⟨by simpa using hgiven, hset⟩
  · rintro ⟨rfl, hset⟩
    exact ⟨rfl, hset, by simp⟩

theorem first_succ_iff :
    First (source :: sources) (i + 1) s ↔ Lacking source ∧ First sources i s := by
  constructor
  · rintro ⟨hgiven, hset, hbefore⟩
    refine ⟨hbefore 0 (by omega) source rfl, by simpa using hgiven, hset, fun j hj o ho => ?_⟩
    exact hbefore (j + 1) (by omega) o (by simpa using ho)
  · rintro ⟨hlacking, hgiven, hset, hbefore⟩
    refine ⟨by simpa using hgiven, hset, fun j hj o ho => ?_⟩
    cases j with
    | zero =>
      obtain rfl : source = o := by simpa using ho
      exact hlacking
    | succ j => exact hbefore j (by omega) o (by simpa using ho)

theorem not_first_nil : ¬ First [] i s := by
  rintro ⟨hgiven, -, -⟩
  simp at hgiven

theorem unset_cons_iff : Unset (source :: sources) ↔ Lacking source ∧ Unset sources := by
  simp [Unset]

theorem absentBefore_succ_iff :
    AbsentBefore (source :: sources) (i + 1) ↔ source = none ∧ AbsentBefore sources i := by
  constructor
  · intro h
    exact ⟨by simpa using h 0 (by omega), fun j hj => by simpa using h (j + 1) (by omega)⟩
  · rintro ⟨rfl, h⟩ j hj
    cases j with
    | zero => rfl
    | succ j => simpa using h j (by omega)

/-- Some source is the first one that holds more than blanks, or none does. -/
theorem exists_first_or_unset (sources : List (Option String)) :
    (∃ i s, First sources i s) ∨ Unset sources := by
  induction sources with
  | nil => exact .inr (by simp [Unset])
  | cons source sources ih =>
    by_cases hlacking : Lacking source
    · rcases ih with ⟨i, s, h⟩ | h
      · exact .inl ⟨i + 1, s, first_succ_iff.mpr ⟨hlacking, h⟩⟩
      · exact .inr (unset_cons_iff.mpr ⟨hlacking, h⟩)
    · simp only [Lacking, not_forall, Bool.not_eq_true] at hlacking
      obtain ⟨s, hsource, hset⟩ := hlacking
      exact .inl ⟨0, s, first_zero_iff.mpr ⟨hsource, hset⟩⟩

/-! ### The first source that is there -/

/-- With nothing in front of it, the first source with more than blanks is the first one there. -/
theorem First.findSome? (h : First sources i s) (habsent : AbsentBefore sources i) :
    sources.findSome? id = some s := by
  induction sources generalizing i with
  | nil => exact absurd h not_first_nil
  | cons source sources ih =>
    cases i with
    | zero =>
      obtain ⟨rfl, -⟩ := first_zero_iff.mp h
      rfl
    | succ i =>
      obtain ⟨rfl, hrest⟩ := absentBefore_succ_iff.mp habsent
      exact ih (first_succ_iff.mp h).2 hrest

/-- With something in front of it, the first one there is blank. -/
theorem First.lacking (h : First sources i s) (habsent : ¬ AbsentBefore sources i) :
    Lacking (sources.findSome? id) := by
  induction sources generalizing i with
  | nil => exact absurd h not_first_nil
  | cons source sources ih =>
    cases i with
    | zero => exact absurd (by simp [AbsentBefore]) habsent
    | succ i =>
      obtain ⟨hlacking, hrest⟩ := first_succ_iff.mp h
      cases source with
      | some t => exact hlacking
      | none =>
        rw [absentBefore_succ_iff, eq_self, true_and] at habsent
        exact ih hrest habsent

theorem Unset.lacking (h : Unset sources) : Lacking (sources.findSome? id) := by
  induction sources with
  | nil => simp [Lacking]
  | cons source sources ih =>
    obtain ⟨hlacking, hrest⟩ := unset_cons_iff.mp h
    cases source with
    | some t => exact hlacking
    | none => exact ih hrest

end Sources

open Sources

/-! ## The address of the node -/

/-- The address of the node, if the configuration has one, is not blank. -/
def GlobalConfig.UrlSet (global : GlobalConfig) : Prop :=
  ∀ url, global.rpcUrl = some url → Text.allBlank url = false

theorem GlobalConfig.SaysUrl.set_of_some {d : Yaml.Document} {n : Yaml.Node} {url : String}
    (h : SaysUrl d n (some url)) : Text.allBlank url = false := by
  cases h with
  | set _ hset => rw [Text.allBlank_trim, hset]

namespace Config

theorem urlSet_of_reader {d : Yaml.Document} {n : Yaml.Node} {config : Config}
    (h : reader d n = some config) : config.global.UrlSet := by
  -- the address is the first of the settings, which are what is written for them
  obtain ⟨o, ho⟩ := follows_settings.written d n config h _ List.mem_cons_self
  have hget : config.global.rpcUrl = o.getD none :=
    follows_settings.holds d n config h _ List.mem_cons_self o ho
  obtain ⟨p, -, hsays⟩ := ho
  intro url hurl
  rw [hget] at hurl
  cases hsays with
  | none => cases hurl
  | some hsays =>
    obtain rfl : _ = some url := hurl
    exact hsays.set_of_some

theorem urlSet_of_read {files : Files} {path : String} {config : Config}
    (h : read files path = .ok config) : config.global.UrlSet := by
  unfold read at h
  split at h
  · cases h
  · split at h
    · cases h
    · rename_i hyaml
      cases h
      obtain ⟨d, -, hd⟩ := Option.bind_eq_some_iff.mp hyaml
      exact urlSet_of_reader hd

/-- A configuration that has been loaded has no blank address of a node. -/
theorem urlSet_of_load {files : Files} {path : Option String} {config : Config}
    (h : load files path = .ok config) : config.global.UrlSet := by
  unfold load at h
  split at h
  · split at h
    · exact urlSet_of_read h
    · cases h
  · split at h
    · exact urlSet_of_read h
    · cases h
      simp [GlobalConfig.UrlSet]

end Config

theorem Endpoint.urlOf_of_first {global : GlobalConfig} {environment : Option String} {i : Nat}
    {s : String} (h : First [environment, global.rpcUrl] i s) :
    Endpoint.urlOf global environment = Text.trim s := by
  unfold Endpoint.urlOf
  match i with
  | 0 =>
    obtain ⟨rfl, hset⟩ := first_zero_iff.mp h
    simp [Text.unlessBlank_eq_some_iff.mpr ⟨rfl, hset⟩]
  | 1 =>
    obtain ⟨hlacking, h⟩ := first_succ_iff.mp h
    obtain ⟨hurl, -⟩ := first_zero_iff.mp h
    simp [lacking_iff.mp hlacking, hurl]
  | i + 2 => exact absurd (first_succ_iff.mp (first_succ_iff.mp h).2).2 not_first_nil

theorem Endpoint.urlOf_of_unset {global : GlobalConfig} {environment : Option String}
    (hset : global.UrlSet) (h : Unset [environment, global.rpcUrl]) :
    Endpoint.urlOf global environment = Endpoint.defaultUrl := by
  obtain ⟨henvironment, h⟩ := unset_cons_iff.mp h
  obtain ⟨hconfigured, -⟩ := unset_cons_iff.mp h
  have hnone : global.rpcUrl = none := by
    cases hurl : global.rpcUrl with
    | none => rfl
    | some url =>
      have hblank := hconfigured url hurl
      rw [hset url hurl] at hblank
      cases hblank
  have hdefault : Text.trim Endpoint.defaultUrl = Endpoint.defaultUrl := by decide +kernel
  simp [Endpoint.urlOf, lacking_iff.mp henvironment, hnone, hdefault]

theorem Endpoint.resolve_eq (global : GlobalConfig) (environment : Option String) :
    Endpoint.resolve global environment =
      (Commitment.parse global.commitment).map
        (Endpoint.mk (Endpoint.urlOf global environment)) := by
  unfold Endpoint.resolve
  cases Commitment.parse global.commitment <;> rfl

/-! ## The key -/

namespace Wallet

/-- What is reported of a key that cannot be read, by the place of its source. -/
def keyFault : Nat → KeypairError → SettingsFault
  | 0 => .environmentKey
  | _ => .configuredKey

theorem load_of_first {environment : Option String} {configured : String} {i : Nat} {s : String}
    (h : First [environment, some configured] i s) :
    load environment configured = (Keypair.parse s).mapError fun e =>
      .configuration (keyFault i e) := by
  unfold load
  match i with
  | 0 =>
    obtain ⟨rfl, hset⟩ := first_zero_iff.mp h
    rw [Option.bind_some, Text.unlessBlank_eq_some_iff.mpr ⟨rfl, hset⟩]
    rfl
  | 1 =>
    obtain ⟨hlacking, h⟩ := first_succ_iff.mp h
    obtain ⟨hconfigured, hset⟩ := first_zero_iff.mp h
    rw [lacking_iff.mp hlacking, Option.some.inj hconfigured,
      Text.unlessBlank_eq_some_iff.mpr ⟨rfl, hset⟩]
    rfl
  | i + 2 => exact absurd (first_succ_iff.mp (first_succ_iff.mp h).2).2 not_first_nil

theorem load_of_unset {environment : Option String} {configured : String}
    (h : Unset [environment, some configured]) :
    load environment configured = .error (.configuration .missingKey) := by
  obtain ⟨henvironment, h⟩ := unset_cons_iff.mp h
  obtain ⟨hconfigured, -⟩ := unset_cons_iff.mp h
  have hblank : Text.unlessBlank configured = none := lacking_iff.mp hconfigured
  rw [load, lacking_iff.mp henvironment, hblank]

end Wallet

/-! ## The mint -/

namespace Parameters

variable {arguments : ProposeArguments} {program : ProgramConfig} {link : Option String}

/-- The sources of the mint, in order. -/
def mintSources (arguments : ProposeArguments) (program : ProgramConfig) (link : Option String) :
    List (Option String) :=
  [arguments.link, link, program.linkMint]

/-- The parameters of a run for which the mint is given by the argument or not at all. -/
def resolveWith (arguments : ProposeArguments) (program : ProgramConfig) (mint : Option String) :
    Except ProposeError Parameters :=
  resolve { arguments with link := mint } { program with linkMint := none } none

theorem givenMint_eq : givenMint arguments program link =
    (mintSources arguments program link).findSome? id := by
  unfold givenMint mintSources
  cases arguments.link <;> cases link <;> cases program.linkMint <;> rfl

/-- The sources of the mint matter only for the text that they give. -/
theorem resolve_eq_resolveWith {mint : Option String}
    (h : (givenMint arguments program link).bind Text.unlessBlank = mint.bind Text.unlessBlank) :
    resolve arguments program link = resolveWith arguments program mint := by
  have htext : mintText arguments.link link program.linkMint = mintText mint none none := by
    unfold givenMint at h
    simp only [mintText, h, Option.or_none]
  simp only [resolve, resolveWith, htext]

theorem resolve_of_lacking (h : Lacking ((mintSources arguments program link).findSome? id)) :
    resolve arguments program link = resolveWith arguments program none := by
  apply resolve_eq_resolveWith
  rw [givenMint_eq, lacking_iff.mp h, Option.bind_none]

end Parameters

/-! ## All three settings -/

/-- The address of the node and the key are those of their first source with more than blanks, from
the environment or else from the configuration, and the later source does not matter, even where
the text of the first one is no key. Only where all sources are blank, the address is the default
one and the key is missing. Of the mint the same holds where no source stands in front of the first
one with more than blanks; a source that stands there is blank, and yet the run goes on as if no
source gave a mint. -/
theorem sources_decide {files : Files} {path : Option String} {config : Config}
    (hload : Config.load files path = .ok config) (environment : Environment)
    (arguments : ProposeArguments) :
    Decide [environment.rpcUrl, config.global.rpcUrl]
        (fun _ s => Endpoint.resolve config.global environment.rpcUrl =
          (Commitment.parse config.global.commitment).map (Endpoint.mk (Text.trim s)))
        (Endpoint.resolve config.global environment.rpcUrl =
          (Commitment.parse config.global.commitment).map (Endpoint.mk Endpoint.defaultUrl)) ∧
      Decide [environment.privateKey, some config.global.privateKey]
        (fun i s => Wallet.load environment.privateKey config.global.privateKey =
          (Keypair.parse s).mapError fun e => .configuration (Wallet.keyFault i e))
        (Wallet.load environment.privateKey config.global.privateKey =
          .error (.configuration .missingKey)) ∧
      Decide (Parameters.mintSources arguments config.program environment.link)
        (fun i s =>
          (AbsentBefore (Parameters.mintSources arguments config.program environment.link) i →
            Parameters.resolve arguments config.program environment.link =
              Parameters.resolveWith arguments config.program (some s)) ∧
          (¬ AbsentBefore (Parameters.mintSources arguments config.program environment.link) i →
            Parameters.resolve arguments config.program environment.link =
              Parameters.resolveWith arguments config.program none))
        (Parameters.resolve arguments config.program environment.link =
          Parameters.resolveWith arguments config.program none) := by
  have either := exists_first_or_unset
  refine ⟨⟨either _, fun i s h => ?_, fun h => ?_⟩, ⟨either _, fun i s h => ?_, fun h => ?_⟩,
    ⟨either _, fun i s h => ⟨fun habsent => ?_, fun habsent => ?_⟩, fun h => ?_⟩⟩
  · rw [Endpoint.resolve_eq, Endpoint.urlOf_of_first h]
  · rw [Endpoint.resolve_eq, Endpoint.urlOf_of_unset (Config.urlSet_of_load hload) h]
  · exact Wallet.load_of_first h
  · exact Wallet.load_of_unset h
  · apply Parameters.resolve_eq_resolveWith
    rw [Parameters.givenMint_eq, h.findSome? habsent]
  · exact Parameters.resolve_of_lacking (h.lacking habsent)
  · exact Parameters.resolve_of_lacking h.lacking

/-- Arguments with a state and a proposal, and perhaps a mint. -/
def ProposeArguments.mintedBy (link : Option String) : ProposeArguments :=
  ⟨some "S", some Address.systemProgram.text, none, none, link, false, false, false⟩

theorem sources_decide_default :
    Config.load (fun _ => .error .notFound) none = .ok {} ∧
      Decide [some " ", none]
        (fun _ s => Endpoint.resolve {} (some " ") = .ok ⟨Text.trim s, .confirmed⟩)
        (Endpoint.resolve {} (some " ") = .ok ⟨Endpoint.defaultUrl, .confirmed⟩) := by
  have hload : Config.load (fun _ => .error .notFound) none = .ok {} := rfl
  exact ⟨hload, (sources_decide hload ⟨none, some " ", none⟩ (.mintedBy none)).1⟩

/-- A blank mint in the arguments hides the one in the environment, with which alone the run would
have gone on. -/
theorem blank_argument_hides_mint :
    Parameters.resolve (.mintedBy (some " ")) {} (some Address.tokenProgram.text) =
        .error (.configuration .missingMint) ∧
      (Parameters.resolve (.mintedBy none) {} (some Address.tokenProgram.text)).map
        Parameters.tokenMint = .ok Address.tokenProgram := by
  constructor
  · decide +kernel
  · decide +kernel

end PayeeProposal
