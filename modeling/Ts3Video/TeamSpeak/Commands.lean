import Mathlib.Tactic.Common
import Ts3Video.Library.EscapeCode

/-!
# Query commands

A command for the query console is a line of words. Keys and values form the words behind the command word,
several values of one key are separated by pipes, and option words follow. Values are escaped, so that they
should not bring separators along.
-/

namespace Ts3Video

namespace TS3ServerQuery

/-- The replacements of the escaped characters. -/
def escapes : List (Char × String) :=
  [('\\', "\\\\"), ('/', "\\/"), (' ', "\\s"), ('|', "\\p"),
    ('\x07', "\x07"), ('\x08', "\x08"), ('\x0c', "\x0c"), ('\n', "\n"), ('\r', "\r"), ('\t', "\t"),
    ('\x0b', "\x0b")]

/-- The text that is written for a character. -/
def escapeChar (c : Char) : String := (escapes.lookup c).getD (String.singleton c)

/-- Replace the escaped characters of a text. -/
def escape (s : String) : String := s.toList.foldl (fun enc c => enc ++ escapeChar c) ""

/-- Append one key with each of its values. -/
def appendValues (s key : String) (values : List String) : String :=
  values.zipIdx.foldl
    (fun s value => ((if 0 < value.2 then s.push '|' else s) ++ key).push '=' ++ escape value.1) s

/-- Append an option word, which begins with a dash. -/
def appendOption (s option : String) : String :=
  (if option.toList.head? = some '-' then s else s.push '-') ++ option

/-- The line for a command with its parameters and options. -/
def createCommand (cmd : String) (parameters : List (String × List String)) (options : List String) :
    String :=
  if cmd.isEmpty then ""
  else
    let s := parameters.foldl (fun s parameter => appendValues (s.push ' ') parameter.1 parameter.2) cmd
    let s := options.foldl (fun s option => appendOption (s.push ' ') option) s
    s.push '\n'

/-- The characters that the letters behind a backslash stand for. -/
def escapedSymbol : Char → Option Char
  | '\\' => some '\\'
  | '/' => some '/'
  | 's' => some ' '
  | 'p' => some '|'
  | 'a' => some '\x07'
  | 'b' => some '\x08'
  | 'f' => some '\x0c'
  | 'n' => some '\n'
  | 'r' => some '\r'
  | 't' => some '\t'
  | 'v' => some '\x0b'
  | _ => none

/-- Undo the escapes of a value. -/
def undoEscapes (value : List Char) : String := String.ofList (EscapeCode.decode '\\' escapedSymbol value)

/-- A key with its value, or a word without a value, as the receiver of a command reads it. -/
def readItem (item : List Char) : String × Option String :=
  let split := EscapeCode.splitFirst '=' item
  (String.ofList split.1, split.2.map undoEscapes)

/-- The items of one word of a command. -/
def readWord (word : List Char) : List (String × Option String) := (word.splitOn '|').map readItem

/-- The command word and the items of the other words of a line. -/
def readCommand (line : List Char) : Option (String × List (List (String × Option String))) :=
  match line.splitOn ' ' with
  | [] => none
  | cmd :: words => some (String.ofList cmd, words.map readWord)

/-- The characters that separate the words, the items and the values of a command. -/
def separators : List Char := ['\n', ' ', '|', '=']

/-- A text that can stand as a word of a command. -/
def IsWord (s : String) : Prop := ∀ c ∈ separators, c ∉ s.toList

instance (s : String) : Decidable (IsWord s) :=
  decidable_of_iff (separators.all fun c => c ∉ s.toList)
    (by simp only [List.all_eq_true, decide_eq_true_eq, IsWord])

/-- The word of an option in a command. -/
def optionWord (option : String) : String := appendOption "" option

/-- One key with one of its values. -/
def itemText (key value : String) : List Char := key.toList ++ '=' :: (escape value).toList

/-- One key with all of its values. -/
def parameterText (parameter : String × List String) : List Char :=
  ['|'].intercalate (parameter.2.map (itemText parameter.1))

/-- A command is one line, its values bring no separators, and it is read back as it was given. -/
structure IsUnbroken (cmd : String) (parameters : List (String × List String)) (options : List String) :
    Prop where
  line : ∃ line, (createCommand cmd parameters options).toList = line ++ ['\n'] ∧ '\n' ∉ line ∧
    readCommand line = some (cmd,
      parameters.map (fun parameter => parameter.2.map fun value => (parameter.1, some value)) ++
        options.map fun option => [(optionWord option, none)])
  values : ∀ parameter ∈ parameters, ∀ value ∈ parameter.2, ∀ c ∈ [' ', '|', '\n'],
    c ∉ (escape value).toList

/-- Four characters are written as a backslash and a letter, all others as themselves. -/
theorem escapeChar_cases (c : Char) :
    (∃ letter ∈ ['\\', '/', 's', 'p'], escapedSymbol letter = some c ∧
      (escapeChar c).toList = ['\\', letter]) ∨
    (c ∉ ['\\', '/', ' ', '|'] ∧ (escapeChar c).toList = [c]) := by
  by_cases hkey : c ∈ escapes.map Prod.fst
  · simp only [escapes, List.map_cons, List.map_nil, List.mem_cons, List.not_mem_nil, or_false] at hkey
    obtain rfl | rfl | rfl | rfl | hcontrol := hkey
    · exact .inl ⟨'\\', by decide, rfl, by decide⟩
    · exact .inl ⟨'/', by decide, rfl, by decide⟩
    · exact .inl ⟨'s', by decide, rfl, by decide⟩
    · exact .inl ⟨'p', by decide, rfl, by decide⟩
    · right
      obtain rfl | rfl | rfl | rfl | rfl | rfl | rfl := hcontrol <;> decide
  · have hlookup : escapes.lookup c = none := by
      rw [List.lookup_eq_none_iff]
      intro entry hentry
      rw [bne_iff_ne]
      rintro rfl
      exact hkey (List.mem_map_of_mem hentry)
    refine .inr ⟨fun hc => hkey ?_, ?_⟩
    · revert hc
      simp [escapes]
      tauto
    · rw [escapeChar, hlookup, Option.getD_none, String.toList_singleton]

/-- The escapes of a text are those of its characters. -/
theorem toList_escape (s : String) : (escape s).toList = s.toList.flatMap fun c => (escapeChar c).toList := by
  have hfold : ∀ (text : List Char) (enc : String),
      (text.foldl (fun enc c => enc ++ escapeChar c) enc).toList =
        enc.toList ++ text.flatMap fun c => (escapeChar c).toList := by
    intro text
    induction text with
    | nil => intro enc; rw [List.foldl_nil, List.flatMap_nil, List.append_nil]
    | cons c text ih =>
      intro enc
      rw [List.foldl_cons, ih, String.toList_append, List.flatMap_cons, List.append_assoc]
  rw [escape, hfold, String.toList_empty, List.nil_append]

/-- The escapes are undone by their reading. -/
theorem undoEscapes_escape (s : String) : undoEscapes (escape s).toList = s := by
  have hcode : EscapeCode.IsCode '\\' escapedSymbol fun c => (escapeChar c).toList := by
    intro c
    obtain ⟨letter, -, hletter, htext⟩ | ⟨hplain, htext⟩ := escapeChar_cases c
    · exact .inr ⟨letter, hletter, htext⟩
    · exact .inl ⟨fun h => hplain (h ▸ List.mem_cons_self), htext⟩
  rw [undoEscapes, toList_escape, hcode.decode_flatMap, String.ofList_toList]

/-- Escaped values have no spaces and no pipes. -/
theorem not_mem_escape {c : Char} (hc : c ∈ [' ', '|']) (s : String) : c ∉ (escape s).toList := by
  rw [toList_escape, List.mem_flatMap]
  rintro ⟨d, -, hmem⟩
  obtain ⟨letter, hletter, -, htext⟩ | ⟨hplain, htext⟩ := escapeChar_cases d
  · have hne : ∀ c ∈ [' ', '|'], ∀ letter ∈ ['\\', '/', 's', 'p'], c ∉ ['\\', letter] := by simp
    exact hne c hc letter hletter (htext ▸ hmem)
  · rw [htext, List.mem_singleton] at hmem
    subst hmem
    exact hplain (List.mem_cons_of_mem _ (List.mem_cons_of_mem _ hc))

/-- Line feeds stay in the escaped value. -/
theorem lineFeed_mem_escape (s : String) : '\n' ∈ (escape s).toList ↔ '\n' ∈ s.toList := by
  rw [toList_escape, List.mem_flatMap]
  constructor
  · rintro ⟨d, hd, hmem⟩
    obtain ⟨letter, hletter, -, htext⟩ | ⟨-, htext⟩ := escapeChar_cases d
    · have hne : ∀ letter ∈ ['\\', '/', 's', 'p'], '\n' ∉ ['\\', letter] := by simp
      exact absurd (htext ▸ hmem) (hne letter hletter)
    · rw [htext, List.mem_singleton] at hmem
      exact hmem ▸ hd
  · exact fun h => ⟨'\n', h, by decide⟩

/-- The values of a parameter are appended as its text. -/
theorem toList_appendValues (s key : String) (values : List String) :
    (appendValues s key values).toList = s.toList ++ parameterText (key, values) := by
  have hstep : ∀ (s value : String) (j : ℕ),
      (((if 0 < j then s.push '|' else s) ++ key).push '=' ++ escape value).toList =
        s.toList ++ ((if 0 < j then ['|'] else []) ++ itemText key value) := by
    intro s value j
    split <;> simp [itemText]
  have hrest : ∀ (values : List String) (s : String) (j : ℕ), 0 < j →
      ((values.zipIdx j).foldl (fun s value =>
        ((if 0 < value.2 then s.push '|' else s) ++ key).push '=' ++ escape value.1) s).toList =
        s.toList ++ (values.map (itemText key)).flatMap (['|'] ++ ·) := by
    intro values
    induction values with
    | nil => intro s j _; simp
    | cons value values ih =>
      intro s j hj
      rw [List.zipIdx_cons, List.foldl_cons, ih _ _ (Nat.succ_pos j), hstep, if_pos hj, List.map_cons,
        List.flatMap_cons, List.append_assoc]
  cases values with
  | nil => simp [appendValues, parameterText]
  | cons value values =>
    rw [appendValues, List.zipIdx_cons, List.foldl_cons, hrest _ _ _ (Nat.succ_pos 0), hstep,
      if_neg (Nat.lt_irrefl 0), List.nil_append, parameterText, List.map_cons,
      EscapeCode.intercalate_cons, List.append_assoc]

/-- A command is its words joined by spaces, and a line feed. -/
theorem toList_createCommand {cmd : String} (hcmd : cmd ≠ "") (parameters : List (String × List String))
    (options : List String) :
    (createCommand cmd parameters options).toList =
      [' '].intercalate (cmd.toList :: (parameters.map parameterText ++
        options.map fun option => (optionWord option).toList)) ++ ['\n'] := by
  have hparameters : ∀ (parameters : List (String × List String)) (s : String),
      (parameters.foldl (fun s parameter => appendValues (s.push ' ') parameter.1 parameter.2) s).toList =
        s.toList ++ (parameters.map parameterText).flatMap ([' '] ++ ·) := by
    intro parameters
    induction parameters with
    | nil => intro s; simp
    | cons parameter parameters ih =>
      intro s
      rw [List.foldl_cons, ih, toList_appendValues, String.toList_push, List.map_cons, List.flatMap_cons]
      simp only [List.append_assoc]
  have hoptions : ∀ (options : List String) (s : String),
      (options.foldl (fun s option => appendOption (s.push ' ') option) s).toList =
        s.toList ++ (options.map fun option => (optionWord option).toList).flatMap ([' '] ++ ·) := by
    intro options
    induction options with
    | nil => intro s; simp
    | cons option options ih =>
      intro s
      have hword : (appendOption (s.push ' ') option).toList =
          s.toList ++ ([' '] ++ (optionWord option).toList) := by
        unfold optionWord appendOption
        split <;> simp
      rw [List.foldl_cons, ih, hword, List.map_cons, List.flatMap_cons, List.append_assoc]
  have hempty : cmd.isEmpty = false := by
    rwa [Bool.eq_false_iff, ne_eq, String.isEmpty_iff]
  rw [createCommand, hempty, EscapeCode.intercalate_cons, List.flatMap_append]
  simp only [Bool.false_eq_true, if_false, String.toList_push, hoptions, hparameters, List.append_assoc]

/-- An item of a parameter is read as its key and value. -/
theorem readItem_itemText {key : String} (hkey : IsWord key) (value : String) :
    readItem (itemText key value) = (key, some value) := by
  have hsplit := EscapeCode.splitFirst_append (hkey '=' (by decide)) (escape value).toList
  rw [readItem, itemText, hsplit, String.ofList_toList, Option.map_some, undoEscapes_escape]

/-- The word of a parameter with values is read as its items. -/
theorem readWord_parameterText {key : String} (hkey : IsWord key) {values : List String}
    (hvalues : values ≠ []) :
    readWord (parameterText (key, values)) = values.map fun value => (key, some value) := by
  have hplain : ∀ item ∈ values.map (itemText key), '|' ∉ item := by
    intro item hitem
    obtain ⟨value, -, rfl⟩ := List.mem_map.mp hitem
    rw [itemText, List.mem_append, List.mem_cons]
    rintro (h | h | h)
    · exact hkey '|' (by decide) h
    · exact absurd h (by decide)
    · exact not_mem_escape (by decide) value h
  rw [readWord, parameterText, List.splitOn_intercalate '|' hplain (by simpa using hvalues), List.map_map]
  exact List.map_congr_left fun value _ => readItem_itemText hkey value

/-- The separators of words do not occur in an option word. -/
theorem isWord_optionWord {option : String} (h : IsWord option) : IsWord (optionWord option) := by
  intro c hc hmem
  unfold optionWord appendOption at hmem
  split at hmem
  · exact h c hc (by simpa using hmem)
  · have hdash : ∀ c ∈ separators, c ≠ '-' := by simp [separators]
    rw [String.toList_append, List.mem_append] at hmem
    obtain hmem | hmem := hmem
    · exact hdash c hc (by simpa using hmem)
    · exact h c hc hmem

/-- An option word is read as a word without a value. -/
theorem readWord_optionWord {option : String} (h : IsWord option) :
    readWord (optionWord option).toList = [(optionWord option, none)] := by
  have hword := isWord_optionWord h
  rw [readWord, List.splitOn_eq_singleton (hword '|' (by decide)), List.map_singleton, readItem,
    EscapeCode.splitFirst_of_not_mem (hword '=' (by decide)), String.ofList_toList, Option.map_none]

/-- The characters of a parameter's text are pipes and those of its items. -/
theorem mem_parameterText {parameter : String × List String} {c : Char}
    (h : c ∈ parameterText parameter) :
    c = '|' ∨ c = '=' ∨ c ∈ parameter.1.toList ∨ ∃ value ∈ parameter.2, c ∈ (escape value).toList := by
  obtain hpipe | ⟨item, hitem, hc⟩ := EscapeCode.mem_intercalate h
  · exact .inl (List.mem_singleton.mp hpipe)
  · obtain ⟨value, hvalue, rfl⟩ := List.mem_map.mp hitem
    rw [itemText, List.mem_append, List.mem_cons] at hc
    obtain hkey | rfl | hescape := hc
    · exact .inr (.inr (.inl hkey))
    · exact .inr (.inl rfl)
    · exact .inr (.inr (.inr ⟨value, hvalue, hescape⟩))

/-- Spaces do not occur in the text of a parameter. -/
theorem space_not_mem_parameterText {parameter : String × List String} (hkey : IsWord parameter.1) :
    ' ' ∉ parameterText parameter := by
  intro h
  obtain h | h | h | ⟨value, -, h⟩ := mem_parameterText h
  · exact absurd h (by decide)
  · exact absurd h (by decide)
  · exact hkey ' ' (by decide) h
  · exact not_mem_escape (by decide) value h

/-- Line feeds of a parameter's text come from its values. -/
theorem lineFeed_mem_parameterText {parameter : String × List String} (hkey : IsWord parameter.1)
    (h : '\n' ∈ parameterText parameter) : ∃ value ∈ parameter.2, '\n' ∈ value.toList := by
  obtain h | h | h | ⟨value, hvalue, h⟩ := mem_parameterText h
  · exact absurd h (by decide)
  · exact absurd h (by decide)
  · exact absurd h (hkey '\n' (by decide))
  · exact ⟨value, hvalue, (lineFeed_mem_escape value).mp h⟩

section Command

variable {cmd : String} {parameters : List (String × List String)} {options : List String}
  (hcmd : cmd ≠ "" ∧ IsWord cmd) (hkeys : ∀ parameter ∈ parameters, IsWord parameter.1)
  (hoptions : ∀ option ∈ options, IsWord option)

include hcmd hkeys hoptions

/-- The words of a command are found between the spaces of its line. -/
theorem readCommand_words :
    readCommand ([' '].intercalate (cmd.toList :: (parameters.map parameterText ++
        options.map fun option => (optionWord option).toList))) =
      some (cmd, parameters.map (fun parameter => readWord (parameterText parameter)) ++
        options.map fun option => [(optionWord option, none)]) := by
  have hplain : ∀ word ∈ cmd.toList :: (parameters.map parameterText ++
      options.map fun option => (optionWord option).toList), ' ' ∉ word := by
    intro word hword
    rw [List.mem_cons, List.mem_append, List.mem_map, List.mem_map] at hword
    obtain rfl | ⟨parameter, hparameter, rfl⟩ | ⟨option, hoption, rfl⟩ := hword
    · exact hcmd.2 ' ' (by decide)
    · exact space_not_mem_parameterText (hkeys parameter hparameter)
    · exact isWord_optionWord (hoptions option hoption) ' ' (by decide)
  have hwords : options.map (readWord ∘ fun option => (optionWord option).toList) =
      options.map fun option => [(optionWord option, none)] :=
    List.map_congr_left fun option hoption => readWord_optionWord (hoptions option hoption)
  rw [readCommand, List.splitOn_intercalate ' ' hplain (List.cons_ne_nil _ _)]
  simp only [String.ofList_toList, List.map_append, List.map_map, hwords]
  rfl

/-- Line feeds of a command's words come from its values. -/
theorem lineFeed_mem_words
    (h : '\n' ∈ [' '].intercalate (cmd.toList :: (parameters.map parameterText ++
        options.map fun option => (optionWord option).toList))) :
    ∃ parameter ∈ parameters, ∃ value ∈ parameter.2, '\n' ∈ value.toList := by
  obtain hspace | ⟨word, hword, hc⟩ := EscapeCode.mem_intercalate h
  · exact absurd hspace (by decide)
  · rw [List.mem_cons, List.mem_append, List.mem_map, List.mem_map] at hword
    obtain rfl | ⟨parameter, hparameter, rfl⟩ | ⟨option, hoption, rfl⟩ := hword
    · exact absurd hc (hcmd.2 '\n' (by decide))
    · exact ⟨parameter, hparameter, lineFeed_mem_parameterText (hkeys parameter hparameter) hc⟩
    · exact absurd hc (isWord_optionWord (hoptions option hoption) '\n' (by decide))

/-- A command is unbroken exactly when each of its parameters has a value and no value has a line feed. -/
theorem createCommand_isUnbroken_iff :
    IsUnbroken cmd parameters options ↔
      ∀ parameter ∈ parameters, parameter.2 ≠ [] ∧ ∀ value ∈ parameter.2, '\n' ∉ value.toList := by
  have hread := readCommand_words hcmd hkeys hoptions
  have htext := toList_createCommand hcmd.1 parameters options
  constructor
  · rintro ⟨⟨line, hline, -, hwords⟩, hvalues⟩ parameter hparameter
    refine ⟨fun hnil => ?_, fun value hvalue hfeed => ?_⟩
    · rw [htext] at hline
      rw [← (List.append_inj' hline rfl).1, hread, Option.some_inj, Prod.mk.injEq,
        List.append_left_inj, List.map_inj_left] at hwords
      have hword := hwords.2 parameter hparameter
      rw [hnil, List.map_nil, readWord, List.map_eq_nil_iff] at hword
      exact List.splitOn_ne_nil _ _ hword
    · exact hvalues parameter hparameter value hvalue '\n' (by decide)
        ((lineFeed_mem_escape value).mpr hfeed)
  · intro h
    refine ⟨⟨_, htext, ?_, ?_⟩, ?_⟩
    · intro hfeed
      obtain ⟨parameter, hparameter, value, hvalue, hmem⟩ :=
        lineFeed_mem_words hcmd hkeys hoptions hfeed
      exact (h parameter hparameter).2 value hvalue hmem
    · have hparameters : parameters.map (fun parameter => readWord (parameterText parameter)) =
          parameters.map fun parameter => parameter.2.map fun value => (parameter.1, some value) :=
        List.map_congr_left fun parameter hparameter =>
          readWord_parameterText (hkeys parameter hparameter) (h parameter hparameter).1
      rw [hread, hparameters]
    · intro parameter hparameter value hvalue c hc
      simp only [List.mem_cons, List.not_mem_nil, or_false] at hc
      obtain rfl | rfl | rfl := hc
      · exact not_mem_escape (by decide) value
      · exact not_mem_escape (by decide) value
      · rw [lineFeed_mem_escape]
        exact (h parameter hparameter).2 value hvalue

end Command

/-- A password with all of the separators that are escaped. -/
theorem createCommand_isUnbroken_password :
    IsUnbroken "login" [("client_login_name", ["admin"]), ("client_login_password", ["a b|c/d\\e=f"])]
      ["-x"] :=
  (createCommand_isUnbroken_iff (by decide) (by decide) (by decide)).mpr (by decide)

/-- A line feed in a nickname ends the command and begins another one. -/
theorem createCommand_isBroken_lineFeed :
    createCommand "clientupdate" [("client_nickname", ["a\nquit"])] [] =
        "clientupdate client_nickname=a\nquit\n" ∧
      ¬ IsUnbroken "clientupdate" [("client_nickname", ["a\nquit"])] [] := by
  refine ⟨by decide +kernel, fun h => ?_⟩
  have hvalue := h.values ("client_nickname", ["a\nquit"]) (by decide) "a\nquit" (by decide) '\n' (by decide)
  exact hvalue (by decide)

end TS3ServerQuery

end Ts3Video
