import ChipEight.Proofs.KeyTiming

/-!
# Lines of key words

A line is cut into its longest runs of characters that are not blank.  A run that spells a command
is carried out and every other run is passed over, so the keys after two lines are the keys after
one line that has both of them with a blank between.
-/

namespace ChipEight

namespace Text

/-! ## Runs -/

/-- The longest runs of a line that have no blank in them, in order.  Between two runs there is a
blank at least, so that no run could be longer. -/
inductive Runs : List Char → List (List Char) → Prop where
  | blank {line : List Char} (hblank : ∀ c ∈ line, isBlank c = true) : Runs line []
  | run {before word after : List Char} {words : List (List Char)}
      (hbefore : ∀ c ∈ before, isBlank c = true) (hword : word ≠ [])
      (hrun : ∀ c ∈ word, isBlank c = false) (hafter : ∀ c ∈ after.head?, isBlank c = true)
      (hwords : Runs after words) :
      Runs (before ++ word ++ after) (word :: words)

theorem words_blank_append {blanks : List Char} (hblank : ∀ c ∈ blanks, isBlank c = true)
    (line : List Char) :
    words (blanks ++ line) = words line := by
  induction blanks with
  | nil => rfl
  | cons c rest ih =>
      obtain ⟨hc, hrest⟩ := List.forall_mem_cons.mp hblank
      rw [← ih hrest]
      exact words_append_blank [] (rest ++ line) c hc

theorem words_blanks {line : List Char} (hblank : ∀ c ∈ line, isBlank c = true) :
    words line = [] := by
  have hwords := words_blank_append hblank []
  rwa [List.append_nil] at hwords

theorem words_append_blanks {blanks : List Char} (hsome : blanks ≠ [])
    (hblank : ∀ c ∈ blanks, isBlank c = true) (before after : List Char) :
    words (before ++ blanks ++ after) = words before ++ words after := by
  obtain ⟨c, rest, rfl⟩ := List.exists_cons_of_ne_nil hsome
  obtain ⟨hc, hrest⟩ := List.forall_mem_cons.mp hblank
  rw [List.append_assoc, List.cons_append, words_append_blank before (rest ++ after) c hc,
    words_blank_append hrest]

theorem words_of_run {word : List Char} (hword : word ≠ [])
    (hrun : ∀ c ∈ word, isBlank c = false) :
    words word = [word] := by
  have hfirst : firstRun word = (word, []) := by
    clear hword
    induction word with
    | nil => rfl
    | cons c rest ih =>
        obtain ⟨hc, hrest⟩ := List.forall_mem_cons.mp hrun
        have hprepend : firstRun (c :: rest) = prependTo c (firstRun rest) := rfl
        rw [hprepend, ih hrest, prependTo, if_neg (by simp [hc])]
  unfold words
  rw [hfirst]
  exact if_neg (by simpa using hword)

theorem words_of_runs {line : List Char} {found : List (List Char)} (hruns : Runs line found) :
    words line = found := by
  induction hruns with
  | blank hblank => exact words_blanks hblank
  | @run before word after _ hbefore hword hrun hafter _ ih =>
      rw [List.append_assoc, words_blank_append hbefore]
      cases after with
      | nil =>
          rw [List.append_nil, words_of_run hword hrun, ← ih]
          rfl
      | cons c rest =>
          have hc : isBlank c = true := hafter c rfl
          have hrest : words (c :: rest) = words rest := words_append_blank [] rest c hc
          rw [words_append_blank word rest c hc, words_of_run hword hrun, ← ih, hrest]
          rfl

theorem Runs.exists_cons {line : List Char} {found : List (List Char)} (hruns : Runs line found)
    (c : Char) :
    ∃ longer, Runs (c :: line) longer := by
  by_cases hc : isBlank c = true
  · cases hruns with
    | blank hblank => exact ⟨[], .blank (List.forall_mem_cons.mpr ⟨hc, hblank⟩)⟩
    | @run before word after rest hbefore hword hrun hafter hwords =>
        have hlonger : ∀ d ∈ c :: before, isBlank d = true :=
          List.forall_mem_cons.mpr ⟨hc, hbefore⟩
        exact ⟨word :: rest, .run hlonger hword hrun hafter hwords⟩
  · rw [Bool.not_eq_true] at hc
    by_cases hhead : ∀ d ∈ line.head?, isBlank d = true
    · -- a word of its own
      refine ⟨[c] :: found, ?_⟩
      change Runs ([] ++ [c] ++ line) ([c] :: found)
      exact .run nofun (List.cons_ne_nil c []) (List.forall_mem_singleton.mpr hc) hhead hruns
    · cases hruns with
      | blank hblank => exact absurd (fun d hd => hblank d (List.mem_of_mem_head? hd)) hhead
      | @run before word after rest hbefore hword hrun hafter hwords =>
          cases before with
          | cons d before =>
              refine absurd ?_ hhead
              rintro _ ⟨⟩
              exact hbefore d List.mem_cons_self
          | nil =>
              -- the word that follows, one character longer
              refine ⟨(c :: word) :: rest, ?_⟩
              change Runs ([] ++ (c :: word) ++ after) ((c :: word) :: rest)
              have hlonger : ∀ d ∈ c :: word, isBlank d = false :=
                List.forall_mem_cons.mpr ⟨hc, hrun⟩
              exact .run nofun (List.cons_ne_nil c word) hlonger hafter hwords

theorem exists_runs (line : List Char) : ∃ found, Runs line found := by
  induction line with
  | nil => exact ⟨[], .blank nofun⟩
  | cons c line ih =>
      obtain ⟨found, hruns⟩ := ih
      exact hruns.exists_cons c

theorem runs_iff (line : List Char) (found : List (List Char)) :
    Runs line found ↔ found = words line := by
  constructor
  · intro hruns
    exact (words_of_runs hruns).symm
  · rintro rfl
    obtain ⟨found, hruns⟩ := exists_runs line
    rwa [words_of_runs hruns]

end Text

namespace KeyCommand

/-! ## Words that are commands -/

/-- Whether a character names a key.  The letters may be in upper case, thirty-two places before the
lower case. -/
def Names (c : Char) (code : UInt8) : Prop :=
  ∃ key, (key, code) ∈ keyNames ∧
    (c = key ∨ 'a' ≤ key ∧ key ≤ 'z' ∧ c.toNat + 32 = key.toNat)

/-- The words that are commands, each with its command. -/
inductive Spells : List Char → KeyCommand → Prop where
  | press {c : Char} {code : UInt8} (hname : Names c code) : Spells ['+', c] ⟨.press, code⟩
  | release {c : Char} {code : UInt8} (hname : Names c code) : Spells ['-', c] ⟨.release, code⟩
  | tap {c : Char} {code : UInt8} (hname : Names c code) : Spells [c] ⟨.tap, code⟩

theorem toLower_eq_iff {key : Char} (hkey : ¬ ('A' ≤ key ∧ key ≤ 'Z')) (c : Char) :
    c.toLower = key ↔ c = key ∨ 'a' ≤ key ∧ key ≤ 'z' ∧ c.toNat + 32 = key.toNat := by
  have hle : ∀ a b : Char, a ≤ b ↔ a.toNat ≤ b.toNat := fun _ _ => Iff.rfl
  simp only [hle, ← Char.toNat_inj] at hkey ⊢
  change ¬ (65 ≤ key.toNat ∧ key.toNat ≤ 90) at hkey
  change _ ↔ _ ∨ 97 ≤ key.toNat ∧ key.toNat ≤ 122 ∧ _
  unfold Char.toLower
  split
  next hupper =>
    obtain ⟨hlow, hhigh⟩ : 65 ≤ c.toNat ∧ c.toNat ≤ 90 := hupper
    have hlower : (c.val + ('a'.val - 'A'.val)).toNat = c.toNat + 32 := by
      have hshift : ('a'.val - 'A'.val).toNat = 32 := rfl
      rw [UInt32.toNat_add, hshift, Char.toNat_val]
      omega
    change (c.val + ('a'.val - 'A'.val)).toNat = key.toNat ↔ _
    rw [hlower]
    omega
  next hother =>
    have hupper : ¬ (65 ≤ c.toNat ∧ c.toNat ≤ 90) := hother
    omega

theorem lookup_keyNames_eq_some_iff (key : Char) (code : UInt8) :
    keyNames.lookup key = some code ↔ (key, code) ∈ keyNames := by
  constructor
  · intro hlookup
    obtain ⟨before, after, hsplit, -⟩ := List.lookup_eq_some_iff.mp hlookup
    rw [hsplit]
    exact List.mem_append_right _ List.mem_cons_self
  · have hall : ∀ entry ∈ keyNames, keyNames.lookup entry.1 = some entry.2 := by decide
    exact hall (key, code)

theorem keyCode?_eq_some_iff (name : List Char) (code : UInt8) :
    keyCode? name = some code ↔ ∃ c, name = [c] ∧ Names c code := by
  have hkeys : ∀ entry ∈ keyNames, ¬ ('A' ≤ entry.1 ∧ entry.1 ≤ 'Z') := by decide
  unfold keyCode?
  split
  next c =>
    rw [lookup_keyNames_eq_some_iff]
    constructor
    · intro hmem
      exact ⟨c, rfl, c.toLower, hmem, (toLower_eq_iff (hkeys _ hmem) c).mp rfl⟩
    · rintro ⟨d, hname, key, hmem, hcase⟩
      obtain rfl : c = d := List.singleton_inj.mp hname
      rwa [(toLower_eq_iff (hkeys _ hmem) c).mpr hcase]
  next hlong =>
    simp only [reduceCtorEq, false_iff, not_exists, not_and]
    intro c hname
    exact absurd hname (hlong c)

theorem map_keyCode?_eq_some_iff (action : KeyAction) (name : List Char) (command : KeyCommand) :
    (keyCode? name).map (⟨action, ·⟩) = some command ↔
      ∃ c code, name = [c] ∧ Names c code ∧ command = ⟨action, code⟩ := by
  rw [Option.map_eq_some_iff]
  constructor
  · rintro ⟨code, hcode, rfl⟩
    obtain ⟨c, rfl, hname⟩ := (keyCode?_eq_some_iff name code).mp hcode
    exact ⟨c, code, rfl, hname, rfl⟩
  · rintro ⟨c, code, rfl, hname, rfl⟩
    exact ⟨code, (keyCode?_eq_some_iff [c] code).mpr ⟨c, rfl, hname⟩, rfl⟩

theorem Names.plain {c : Char} {code : UInt8} (hname : Names c code) :
    c.toNat < 128 ∧ c ≠ '+' ∧ c ≠ '-' := by
  have hkeys : ∀ entry ∈ keyNames, 49 ≤ entry.1.toNat ∧ entry.1.toNat ≤ 122 := by decide
  have hbounds : 49 ≤ c.toNat ∧ c.toNat ≤ 122 := by
    obtain ⟨key, hmem, hcase⟩ := hname
    have hkey : 49 ≤ key.toNat ∧ key.toNat ≤ 122 := hkeys _ hmem
    rcases hcase with rfl | ⟨hlow, -, hcase⟩
    · exact hkey
    · have hletter : 97 ≤ key.toNat := hlow
      omega
  refine ⟨by omega, ?_, ?_⟩
  · rintro rfl
    exact absurd hbounds.1 (by decide)
  · rintro rfl
    exact absurd hbounds.1 (by decide)

theorem parse?_eq_some_iff (word : List Char) (command : KeyCommand) :
    parse? word = some command ↔ Spells word command := by
  constructor
  · intro hparse
    unfold parse? at hparse
    split at hparse
    next name =>
      obtain ⟨c, code, rfl, hname, rfl⟩ := (map_keyCode?_eq_some_iff _ _ _).mp hparse
      exact .press hname
    next name =>
      obtain ⟨c, code, rfl, hname, rfl⟩ := (map_keyCode?_eq_some_iff _ _ _).mp hparse
      exact .release hname
    next =>
      obtain ⟨c, code, rfl, hname, rfl⟩ := (map_keyCode?_eq_some_iff _ _ _).mp hparse
      exact .tap hname
  · intro hspells
    cases hspells with
    | @press c code hname =>
        exact (map_keyCode?_eq_some_iff .press [c] _).mpr ⟨c, code, rfl, hname, rfl⟩
    | @release c code hname =>
        exact (map_keyCode?_eq_some_iff .release [c] _).mpr ⟨c, code, rfl, hname, rfl⟩
    | @tap c code hname =>
        obtain ⟨-, hplus, hminus⟩ := hname.plain
        unfold parse?
        split
        next heq => exact absurd (List.cons.inj heq).1 hplus
        next heq => exact absurd (List.cons.inj heq).1 hminus
        next => exact (map_keyCode?_eq_some_iff .tap [c] _).mpr ⟨c, code, rfl, hname, rfl⟩

theorem Spells.word_bounds {word : List Char} {command : KeyCommand}
    (hspells : Spells word command) :
    word.length ≤ 2 ∧ (∀ c ∈ word, c.toNat < 128) ∧ ∃ c ∈ word, c ≠ '+' ∧ c ≠ '-' := by
  cases hspells with
  | press hname => simpa using hname.plain
  | release hname => simpa using hname.plain
  | tap hname => simpa using hname.plain

end KeyCommand

namespace Console

open KeyCommand (Spells parse?)

/-- What one word does to a console. -/
def obey (c : Console) (word : List Char) : Console :=
  match parse? word with
  | some command => c.command [command]
  | none => c

theorem command_cons (c : Console) (command : KeyCommand) (rest : List KeyCommand) :
    c.command (command :: rest) = (c.command [command]).command rest := rfl

theorem command_append (c : Console) (commands later : List KeyCommand) :
    c.command (commands ++ later) = (c.command commands).command later := by
  induction commands generalizing c with
  | nil => rfl
  | cons command rest ih =>
      rw [List.cons_append, command_cons, ih, ← command_cons]

theorem command_filterMap (c : Console) (words : List (List Char)) :
    c.command (words.filterMap parse?) = words.foldl obey c := by
  induction words generalizing c with
  | nil => rfl
  | cons word rest ih =>
      rw [List.foldl_cons, ← ih, obey]
      cases hparse : parse? word with
      | none => rw [List.filterMap_cons_none hparse]
      | some command => rw [List.filterMap_cons_some hparse, command_cons]

/-- The commands are the names of keys, alone or after one sign, and a line carries out the commands
among its longest runs without blanks, one after the other.  So a line can be cut at any blank. -/
theorem lines_are_read_word_by_word :
    (∀ word command, parse? word = some command ↔ Spells word command) ∧
      (∀ word,
        (2 < word.length ∨ (∃ c ∈ word, 128 ≤ c.toNat) ∨ ∀ c ∈ word, c = '+' ∨ c = '-') →
          parse? word = none) ∧
      (∀ (c : Console) line, ∃ words, Text.Runs line words ∧
        (∀ other, Text.Runs line other → other = words) ∧ c.line line = words.foldl obey c) ∧
      ∀ (c : Console) before blanks after, blanks ≠ [] →
        (∀ b ∈ blanks, Text.isBlank b = true) →
          c.line (before ++ blanks ++ after) = (c.line before).line after := by
  refine ⟨KeyCommand.parse?_eq_some_iff, ?_, ?_, ?_⟩
  · intro word hmisspelt
    rw [Option.eq_none_iff_forall_ne_some]
    intro command hparse
    obtain ⟨hlength, hascii, c, hmem, hplus, hminus⟩ :=
      ((KeyCommand.parse?_eq_some_iff word command).mp hparse).word_bounds
    rcases hmisspelt with hlong | ⟨d, hd, hwide⟩ | hsigns
    · omega
    · have hnarrow := hascii d hd
      omega
    · rcases hsigns c hmem with hc | hc
      · exact hplus hc
      · exact hminus hc
  · intro c line
    refine ⟨Text.words line, (Text.runs_iff _ _).mpr rfl, ?_, c.command_filterMap _⟩
    intro other hruns
    exact (Text.runs_iff _ _).mp hruns
  · intro c before blanks after hsome hblank
    unfold line KeyCommand.ofLine
    rw [Text.words_append_blanks hsome hblank, List.filterMap_append, command_append]

/-- The long s, a letter that has the capital of `s`. -/
def longS : Char := Char.ofNat 0x017F

theorem lines_are_read_word_by_word_capital :
    parse? ['+', 'Q'] = some ⟨.press, 0x4⟩ ∧ parse? ['+', '-', 'q'] = none ∧
      parse? [longS] = none ∧ parse? ['-'] = none ∧
      (new .standard .perStep []).line (['+', 'Q'] ++ [' ', ' '] ++ ['-', 'q']) =
        ((new .standard .perStep []).line ['+', 'Q']).line ['-', 'q'] := by
  obtain ⟨hspells, hmisspelt, -, hcut⟩ := lines_are_read_word_by_word
  have hcapital : KeyCommand.Names 'Q' 0x4 :=
    ⟨'q', by decide, Or.inr ⟨by decide, by decide, by decide⟩⟩
  refine ⟨(hspells _ _).mpr (.press hcapital), hmisspelt _ (Or.inl (by decide)), ?_, ?_, ?_⟩
  · exact hmisspelt _ (Or.inr (Or.inl ⟨longS, List.mem_singleton_self _, by decide⟩))
  · exact hmisspelt _ (Or.inr (Or.inr (List.forall_mem_singleton.mpr (Or.inr rfl))))
  · have hblank : ∀ b ∈ [' ', ' '], Text.isBlank b = true :=
      List.forall_mem_cons.mpr ⟨rfl, List.forall_mem_singleton.mpr rfl⟩
    exact hcut _ _ [' ', ' '] _ (by decide) hblank

end Console

end ChipEight
