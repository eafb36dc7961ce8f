import Mathlib.Data.List.Nodup
import ProseScore.Proofs.Config.Faults

/-!
# The symbols of accepted settings

No symbol of accepted settings is a letter or white space, and the roles that need
symbols of their own have different ones.  So it does not matter in which order a
reader asks what a character stands for.  Nothing else is asked of symbols: settings
that choose only such ones are accepted.
-/

namespace ProseScore

theorem Role.mem_distinct_iff {role : Role} : role ∈ distinct ↔ role ≠ .silence := by
  cases role <;> decide

namespace Symbols

/-- The symbols are the chosen ones, each of them a single character that is neither a
letter nor white space, and standard ones where none is chosen. -/
structure Follows (symbols : Symbols) (given : Role → Option Text) : Prop where
  eq_given : ∀ role text, given role = some text → text = [symbols role]
  plain : ∀ role text, given role = some text →
    isLetter (symbols role) = false ∧ isBlank (symbols role) = false
  eq_standard : ∀ role, given role = none → symbols role = standard role

/-- No character has two roles, unless the rest symbol is the silence key as well. -/
structure Unambiguous (symbols : Symbols) : Prop where
  distinct : ∀ {a b}, a ≠ .silence → b ≠ .silence → a ≠ b → symbols a ≠ symbols b
  silence : symbols .silence = symbols .rest ∨
    ∀ role, role ≠ .silence → symbols .silence ≠ symbols role

theorem standard_plain (role : Role) :
    isLetter (standard role) = false ∧ isBlank (standard role) = false := by
  cases role <;> decide

variable {symbols : Symbols}

/-- The silence key is the rest symbol or one of its own. -/
theorem Unambiguous.silence_ne (h : symbols.Unambiguous) {role : Role} (hrole : role ≠ .silence)
    (hrest : role ≠ .rest) : symbols .silence ≠ symbols role := by
  rcases h.silence with heq | hne
  · rw [heq]
    exact h.distinct (by decide) hrole hrest.symm
  · exact hne role hrole

theorem Unambiguous.ne (h : symbols.Unambiguous) {a b : Role} (hne : a ≠ b)
    (hrest : ¬ (a = .rest ∧ b = .silence)) (hsilence : ¬ (a = .silence ∧ b = .rest)) :
    symbols a ≠ symbols b := by
  by_cases ha : a = .silence
  · subst ha
    exact h.silence_ne hne.symm fun hb => hsilence ⟨rfl, hb⟩
  by_cases hb : b = .silence
  · subst hb
    apply Ne.symm
    exact h.silence_ne ha fun ha => hrest ⟨ha, rfl⟩
  · exact h.distinct ha hb hne

end Symbols

namespace Settings

/-! ## One symbol -/

section

variable {R : Type} {role : Role} {given : Option Text}

theorem symbolFault?_eq_none_iff : symbolFault? role given = (none : Option (ConfigFault R)) ↔
    ∀ text, given = some text → ∃ c, text = [c] ∧ isLetter c = false ∧ isBlank c = false := by
  cases given with
  | none => simp [symbolFault?]
  | some text =>
      match text with
      | [] => simp [symbolFault?]
      | [c] => simp [symbolFault?]
      | c :: d :: text => simp [symbolFault?]

end

variable {R : Type} {settings : Settings R}

theorem follows_symbols_iff : settings.symbols.Follows settings.symbol ↔
    ∀ role, symbolFault? role (settings.symbol role) = (none : Option (ConfigFault R)) := by
  constructor
  · intro h role
    apply symbolFault?_eq_none_iff.mpr
    exact fun text htext => ⟨_, h.eq_given role text htext, h.plain role text htext⟩
  · intro h
    have hgiven (role : Role) (text : Text) (htext : settings.symbol role = some text) :
        text = [settings.symbols role] ∧
          isLetter (settings.symbols role) = false ∧ isBlank (settings.symbols role) = false := by
      obtain ⟨c, rfl, hplain⟩ := symbolFault?_eq_none_iff.mp (h role) text htext
      have hsymbol : settings.symbols role = c := by rw [symbols, htext]
      rw [hsymbol]
      exact ⟨rfl, hplain⟩
    exact {
      eq_given := fun role text htext => (hgiven role text htext).1
      plain := fun role text htext => (hgiven role text htext).2
      eq_standard := fun role hnone => by rw [symbols, hnone] }

theorem symbols_eq_of_follows (settings : Settings R) {symbols : Symbols}
    (h : symbols.Follows settings.symbol) : settings.symbols = symbols := by
  funext role
  rw [Settings.symbols]
  cases hgiven : settings.symbol role with
  | none => exact (h.eq_standard role hgiven).symm
  | some text => rw [h.eq_given role text hgiven]

/-! ## Symbols together -/

theorem firstShared?_eq_none_iff {symbols : Symbols} {roles : List Role} :
    firstShared? symbols roles = none ↔ (roles.map symbols).Nodup := by
  induction roles with
  | nil => simp [firstShared?]
  | cons a roles ih =>
      have hfind : roles.find? (symbols a == symbols ·) = none ↔ symbols a ∉ roles.map symbols := by
        rw [List.find?_eq_none, List.mem_map, not_exists]
        apply forall_congr'
        simp [@eq_comm _ (symbols a)]
      rw [List.map_cons, List.nodup_cons, ← hfind, ← ih, firstShared?]
      cases roles.find? (symbols a == symbols ·) <;> simp

theorem collision?_eq_none_iff {symbols : Symbols} :
    collision? symbols = (none : Option (ConfigFault R)) ↔ symbols.Unambiguous := by
  have hnodup : firstShared? symbols Role.distinct = none ↔
      ∀ {a b}, a ≠ Role.silence → b ≠ Role.silence → a ≠ b → symbols a ≠ symbols b := by
    simp only [firstShared?_eq_none_iff, ← Role.mem_distinct_iff]
    constructor
    · exact fun h a b ha hb hne heq => hne (List.inj_on_of_nodup_map h ha hb heq)
    · intro h
      refine List.Nodup.map_on (fun a ha b hb heq => ?_) (by decide)
      by_contra hne
      exact h ha hb hne heq
  have htaken : (symbols .silence ≠ symbols .rest ∧
      Role.distinct.any (symbols · == symbols .silence) = true) ↔
        ¬ (symbols .silence = symbols .rest ∨
          ∀ role, role ≠ .silence → symbols .silence ≠ symbols role) := by
    rw [not_or, List.any_eq_true]
    apply and_congr_right
    intro _
    push Not
    simp only [Role.mem_distinct_iff, beq_iff_eq, @eq_comm _ (symbols .silence)]
  have hparts : symbols.Unambiguous ↔ firstShared? symbols Role.distinct = none ∧
      ¬ (symbols .silence ≠ symbols .rest ∧
        Role.distinct.any (symbols · == symbols .silence) = true) := by
    rw [hnodup, htaken, not_not]
    exact ⟨fun h => ⟨h.distinct, h.silence⟩, fun h => ⟨h.1, h.2⟩⟩
  rw [hparts, collision?]
  cases firstShared? symbols Role.distinct <;> simp

variable [Scalar R] {config : Config R}

theorem follows_of_config (h : settings.config = .ok config) :
    config.symbols.Follows settings.symbol := by
  obtain ⟨hfault, rfl⟩ := config_eq_ok_iff.mp h
  exact follows_symbols_iff.mpr (fault?_eq_none_iff.mp hfault).1

theorem unambiguous_of_config (h : settings.config = .ok config) :
    config.symbols.Unambiguous := by
  obtain ⟨hfault, rfl⟩ := config_eq_ok_iff.mp h
  exact collision?_eq_none_iff.mp (fault?_eq_none_iff.mp hfault).2.1

theorem plain_symbol (h : settings.config = .ok config) (role : Role) :
    isLetter (config.symbols role) = false ∧ isBlank (config.symbols role) = false := by
  have hfollows := follows_of_config h
  cases hgiven : settings.symbol role with
  | none =>
      rw [hfollows.eq_standard role hgiven]
      exact Symbols.standard_plain role
  | some text => exact hfollows.plain role text hgiven

theorem symbol_ne (h : settings.config = .ok config) {a b : Role} (ha : a ∈ Role.distinct)
    (hb : b ∈ Role.distinct) (hne : a ≠ b) : config.symbols a ≠ config.symbols b := by
  rw [Role.mem_distinct_iff] at ha hb
  exact (unambiguous_of_config h).distinct ha hb hne

theorem silence_ne (h : settings.config = .ok config) {role : Role} (hrole : role ∈ Role.distinct)
    (hne : role ≠ .rest) : config.symbols .silence ≠ config.symbols role :=
  (unambiguous_of_config h).silence_ne (Role.mem_distinct_iff.mp hrole) hne

/-! ## Settings of symbols only -/

theorem config_of_symbols_eq_ok_iff {given : Role → Option Text} {config : Config Float} :
    ({ symbol := given } : Settings Float).config = .ok config ↔
      ∃ symbols : Symbols, symbols.Follows given ∧ symbols.Unambiguous ∧
        config = { Config.standard with symbols := symbols } := by
  have hcurve : curveFault? (VelocityCurve.standard : VelocityCurve Float) = none := by
    decide +kernel
  constructor
  · intro h
    refine ⟨config.symbols, follows_of_config h, unambiguous_of_config h, ?_⟩
    obtain ⟨-, rfl⟩ := config_eq_ok_iff.mp h
    rfl
  · rintro ⟨symbols, hfollows, hunambiguous, rfl⟩
    have hsymbols := symbols_eq_of_follows ({ symbol := given } : Settings Float) hfollows
    apply config_eq_ok_iff.mpr
    constructor
    · apply fault?_eq_none_iff.mpr
      refine ⟨follows_symbols_iff.mp ?_, collision?_eq_none_iff.mpr ?_, rfl, hcurve, fun t => rfl⟩
      · exact hsymbols.symm ▸ hfollows
      · exact hsymbols.symm ▸ hunambiguous
    · rw [← hsymbols]
      rfl

/-- **Every character has one role.**  Settings of nothing but symbols are accepted exactly
if the chosen symbols, together with the standard ones where none is chosen, are single
characters that are neither letters nor white space and that no two roles share, but for
rest and silence; and then they stand in an otherwise standard configuration.  A symbol
that is chosen where another role keeps it as its standard one is refused. -/
theorem symbols_have_one_role (given : Role → Option Text) :
    (∀ config : Config Float, ({ symbol := given } : Settings Float).config = .ok config ↔
      ∃ symbols : Symbols, symbols.Follows given ∧ symbols.Unambiguous ∧
        config = { Config.standard with symbols := symbols }) ∧
      ∀ a b : Role, given a = some [Symbols.standard b] → given b = none →
        ¬ (a = .rest ∧ b = .silence) → ¬ (a = .silence ∧ b = .rest) →
          ∃ fault, ({ symbol := given } : Settings Float).config = .error fault := by
  refine ⟨fun config => config_of_symbols_eq_ok_iff, fun a b ha hb hrest hsilence => ?_⟩
  cases hconfig : ({ symbol := given } : Settings Float).config with
  | error fault => exact ⟨fault, rfl⟩
  | ok config =>
      have hfollows := follows_of_config hconfig
      have hshared : config.symbols a = config.symbols b := by
        rw [hfollows.eq_standard b hb]
        exact (List.singleton_inj.mp (hfollows.eq_given a _ ha)).symm
      have hne : a ≠ b := by
        rintro rfl
        exact Option.some_ne_none _ (ha.symm.trans hb)
      exact absurd hshared ((unambiguous_of_config hconfig).ne hne hrest hsilence)

/-- A slash that the rest gives away is still the silence key's. -/
theorem symbols_have_one_role_beside_silence :
    let given (accent : Char) : Role → Option Text
      | .rest => some ['-']
      | .accent => some [accent]
      | _ => none
    (∃ config : Config Float, ({ symbol := given '*' } : Settings Float).config = .ok config ∧
      config.symbols .accent = '*' ∧ config.symbols .silence = '/') ∧
      ∃ fault, ({ symbol := given '/' } : Settings Float).config = .error fault := by
  intro given
  constructor
  · have hfault : ({ symbol := given '*' } : Settings Float).fault? = none := by decide +kernel
    have hconfig := config_eq_ok_iff.mpr ⟨hfault, rfl⟩
    obtain ⟨symbols, hfollows, -, heq⟩ := ((symbols_have_one_role (given '*')).1 _).mp hconfig
    refine ⟨_, hconfig, ?_, ?_⟩
    · have hstar := hfollows.eq_given .accent ['*'] rfl
      rw [heq]
      exact (List.singleton_inj.mp hstar).symm
    · rw [heq]
      exact hfollows.eq_standard .silence rfl
  · exact (symbols_have_one_role (given '/')).2 .accent .silence rfl rfl (by decide) (by decide)

end Settings
end ProseScore
