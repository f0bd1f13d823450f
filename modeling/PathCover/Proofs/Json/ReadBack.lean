import PathCover.Json.Read
import PathCover.Json.Value

/-!
# Reading what was written

A value is written as JSON by giving its JSON form, and read by steps that know what they expect.
The two fit together if the steps read the form: in front of any text they take off exactly what is
written for the form, and give the value.  This is shown here for the parts that every reader is
made of: strings, values that may be null, lists, records and cases.
-/

namespace PathCover.Json

variable {α β σ : Type}

/-! ## Steps of reading -/

theorem run_then {first : Read α} {text rest : List Char} {value : α}
    (runs : first.run text = .ok (value, rest)) (next : α → Read β) :
    (first >>= next).run text = (next value).run rest := by
  rw [StateT.run_bind, runs]
  rfl

/-- Blanks aside, the next character is seen and stays where it is. -/
theorem run_peek {c : Char} (visible : isSpace c = false) (text : List Char) :
    peek.run (c :: text) = .ok (some c, c :: text) := by
  have stays : (c :: text).dropWhile isSpace = c :: text := by
    rw [List.dropWhile_cons, visible]
    rfl
  show Except.ok (((c :: text).dropWhile isSpace).head?, (c :: text).dropWhile isSpace) = _
  rw [stays]
  rfl

theorem run_drop (c : Char) (text : List Char) : drop.run (c :: text) = .ok ((), text) := rfl

theorem run_takeChar (c : Char) (text : List Char) : takeChar.run (c :: text) = .ok (c, text) := rfl

theorem run_get (text : List Char) : (get : Read (List Char)).run text = .ok (text, text) := rfl

/-! ## Strings -/

theorem hexFour?_control : ∀ code < 32,
    hexFour? '0' '0' (code / 16).digitChar (code % 16).digitChar = some code := by
  decide

theorem run_readHexFour {a b c d : Char} {value : Nat} (isHex : hexFour? a b c d = some value)
    (rest : List Char) : readHexFour.run (a :: b :: c :: d :: rest) = .ok (value, rest) := by
  have enough : ¬ (String.ofList [a, b, c, d]).utf8ByteSize < 4 := by
    have sizes := And.intro (And.intro a.utf8Size_pos b.utf8Size_pos)
      (And.intro c.utf8Size_pos d.utf8Size_pos)
    simp only [String.ofList_cons, String.utf8ByteSize_append, String.utf8ByteSize_singleton]
    omega
  show readHexFour (a :: b :: c :: d :: rest) = _
  rw [readHexFour]
  simp only [List.take_succ_cons, List.take_zero, if_neg enough, isHex]

/-- A control character is read back from its escape. -/
theorem readEscape_control {c : Char} (control : c < ' ') (rest : List Char) :
    readEscape.run ((controlEscape c.toNat).tail ++ rest) = .ok (c, rest) := by
  have small : c.toNat < 32 := control
  have unit := run_readHexFour (hexFour?_control c.toNat small) rest
  show (readCodePoint).run ('0' :: '0' :: _ :: _ :: rest) = _
  rw [readCodePoint, run_then unit, if_neg (by omega), if_pos (by omega), Char.ofNat_toNat]
  rfl

variable {fuel : Nat} {text rest : List Char} {chars : List Char}

theorem readChars_escaped {c : Char} {written : List Char}
    (isEscape : readEscape.run written = .ok (c, text))
    (read : (readChars fuel).run text = .ok (chars, rest)) :
    (readChars (fuel + 1)).run ('\\' :: written) = .ok (c :: chars, rest) := by
  rw [readChars, run_then (run_takeChar _ _)]
  show (readEscape >>= fun c => readChars fuel >>= fun chars => pure (c :: chars)).run written = _
  rw [run_then isEscape, run_then read]
  rfl

theorem readChars_plain {c : Char} (noQuote : c ≠ '"') (noEscape : c ≠ '\\')
    (noControl : ¬ c < ' ') (read : (readChars fuel).run text = .ok (chars, rest)) :
    (readChars (fuel + 1)).run (c :: text) = .ok (c :: chars, rest) := by
  rw [readChars, run_then (run_takeChar _ _)]
  split
  · exact absurd rfl noQuote
  · exact absurd rfl noEscape
  · rw [if_neg noControl, run_then read]
    rfl

theorem readChars_escape (c : Char) (read : (readChars fuel).run text = .ok (chars, rest)) :
    (readChars (fuel + 1)).run (escape c ++ text) = .ok (c :: chars, rest) := by
  unfold escape
  -- The two characters and the five controls that have a short escape.
  iterate 7
    split
    · subst c
      exact readChars_escaped rfl read
  split
  · rename_i control
    exact readChars_escaped (readEscape_control control text) read
  · rename_i noQuote noEscape _ _ _ _ _ noControl
    exact readChars_plain noQuote noEscape noControl read

theorem readChars_quoted {chars : List Char} (enough : chars.length < fuel) (rest : List Char) :
    (readChars fuel).run (chars.flatMap escape ++ '"' :: rest) = .ok (chars, rest) := by
  induction chars generalizing fuel with
  | nil =>
      obtain ⟨fuel, rfl⟩ := Nat.exists_eq_add_one_of_ne_zero (Nat.ne_of_gt enough)
      rfl
  | cons c chars ih =>
      obtain ⟨fuel, rfl⟩ := Nat.exists_eq_add_one_of_ne_zero (Nat.ne_zero_of_lt enough)
      rw [List.flatMap_cons, List.append_assoc]
      exact readChars_escape c (ih (Nat.lt_of_succ_lt_succ enough))

theorem escape_ne_nil (c : Char) : escape c ≠ [] := by
  unfold escape
  repeat' split
  all_goals exact List.cons_ne_nil _ _

theorem length_le_escaped (chars : List Char) :
    chars.length ≤ (chars.flatMap escape).length := by
  induction chars with
  | nil => exact Nat.le_refl 0
  | cons c chars ih =>
      have filled := List.length_pos_iff.mpr (escape_ne_nil c)
      rw [List.flatMap_cons, List.length_append, List.length_cons]
      omega

theorem toList_quote (text : String) :
    (quote text).toList = '"' :: (text.toList.flatMap escape ++ ['"']) := by
  rw [quote, String.toList_ofList]

/-- A written string is read back, after its opening quote. -/
theorem readString_quote (text : String) (rest : List Char) :
    readString.run (text.toList.flatMap escape ++ ['"'] ++ rest) = .ok (text, rest) := by
  have enough := length_le_escaped text.toList
  rw [List.append_assoc, List.singleton_append, readString, run_then (run_get _),
    run_then (readChars_quoted _ rest), String.ofList_toList]
  · rfl
  · rw [List.length_append]
    omega

/-! ## Written values -/

/-- What is written for a value. -/
def written (json : Json) : List Char := json.compact.toList

/-- What is written for a member of an object. -/
def writtenMember (member : String × Json) : List Char :=
  (quote member.1).toList ++ ':' :: member.2.written

/-- Items one after the other with a comma between them. -/
def joined (items : List (List Char)) : List Char := [','].intercalate items

theorem joined_cons (first : List Char) (later : List (List Char)) :
    joined (first :: later) = first ++ later.flatMap (',' :: ·) := by
  induction later generalizing first with
  | nil => simp [joined]
  | cons next later ih =>
      rw [joined, List.intercalate_cons_cons, ← joined, ih, List.flatMap_cons]
      simp

theorem compactItems_eq (items : List Json) : compactItems items = items.map compact := by
  induction items with
  | nil => rfl
  | cons item items ih => rw [compactItems, ih, List.map_cons]

theorem compactMembers_eq (members : List (String × Json)) :
    compactMembers members =
      members.map fun member => quote member.1 ++ ":" ++ compact member.2 := by
  induction members with
  | nil => rfl
  | cons member members ih =>
      rw [compactMembers, ih, List.map_cons]

theorem written_text (text : String) : written (.text text) = (quote text).toList := by
  rw [written, compact]

theorem written_array (items : List Json) :
    written (.array items) = '[' :: (joined (items.map written) ++ [']']) := by
  rw [written, compact, compactItems_eq, separated]
  simp only [String.toList_append, String.toList_intercalate, List.map_map]
  rfl

theorem written_object (members : List (String × Json)) :
    written (.object members) = '\x7b' :: (joined (members.map writtenMember) ++ ['\x7d']) := by
  have each :
      members.map (String.toList ∘ fun member => quote member.1 ++ ":" ++ compact member.2) =
        members.map writtenMember := by
    apply List.map_congr_left
    intro member _
    simp [writtenMember, written]
  rw [written, compact, compactMembers_eq, separated]
  simp only [String.toList_append, String.toList_intercalate, List.map_map, each]
  rfl

/-- The text of a value starts neither with a blank nor with what ends a list or starts null. -/
def Opens (json : Json) : Prop :=
  ∃ c tail, json.written = c :: tail ∧ isSpace c = false ∧ c ≠ 'n' ∧ c ≠ ']'

theorem opens_text (text : String) : Opens (.text text) :=
  ⟨'"', _, (written_text text).trans (toList_quote text), by decide⟩

theorem opens_object (members : List (String × Json)) : Opens (.object members) :=
  ⟨'\x7b', _, written_object members, by decide⟩

/-! ## Reading a form -/

/-- A reader takes the text of a value off the front of any text, and gives what it stands for. -/
def Reads (item : Read α) (json : Json) (value : α) : Prop :=
  ∀ rest, item.run (json.written ++ rest) = .ok (value, rest)

/-- The same for a value behind a colon. -/
def ReadsField (item : Read α) (json : Json) (value : α) : Prop :=
  ∀ rest, item.run (':' :: (json.written ++ rest)) = .ok (value, rest)

theorem run_readColon (text : List Char) : readColon.run (':' :: text) = .ok ((), text) := by
  rw [readColon, run_then (run_peek (by decide) _)]
  rfl

theorem reads_text (text : String) : Reads readText (.text text) text := by
  intro rest
  rw [written_text, toList_quote, List.cons_append, readText, run_then (run_peek (by decide) _)]
  exact readString_quote text rest

theorem reads_null (item : Read α) : Reads (readOption item) .null none := by
  intro rest
  rfl

variable {item : Read α} {json : Json} {value : α}

theorem Reads.given (opens : json.Opens) (reads : Reads item json value) :
    Reads (readOption item) json (some value) := by
  intro rest
  obtain ⟨c, tail, isText, visible, noNull, -⟩ := opens
  have read := reads rest
  rw [isText, List.cons_append] at read ⊢
  rw [readOption, run_then (run_peek visible _)]
  split
  · rename_i isNull
    cases isNull
    exact absurd rfl noNull
  · rw [run_then read]
    rfl

theorem Reads.data (reads : Reads item json value) : ReadsField (caseData item) json value := by
  intro rest
  rw [caseData, run_then (run_readColon _)]
  exact reads rest

theorem Reads.field (reads : Reads item json value) (name : String) :
    ReadsField (readField name none item) json (some value) := by
  intro rest
  rw [readField]
  show (readColon >>= fun _ => item >>= fun value => pure (some value)).run _ = _
  rw [run_then (run_readColon _), run_then (reads rest)]
  rfl

/-- What was read may be made into something else without reading on. -/
theorem Reads.made {result : β} (reads : Reads item json value) (make : α → Read β)
    (isMade : make value = pure result) : Reads (item >>= make) json result := by
  intro rest
  rw [run_then (reads rest), isMade]
  rfl

theorem ReadsField.made {result : β} (reads : ReadsField item json value) (make : α → Read β)
    (isMade : make value = pure result) : ReadsField (item >>= make) json result := by
  intro rest
  rw [run_then (reads rest), isMade]
  rfl

/-! ## Lists -/

section Lists

variable {toJson : α → Json} {values : List α}

/-- The first item of a list is read. -/
theorem readItem_first (opens : json.Opens) (reads : Reads item json value) (rest : List Char) :
    (readItem? true item).run (json.written ++ rest) = .ok (some value, rest) := by
  obtain ⟨c, tail, isText, visible, -, noEnd⟩ := opens
  have read := reads rest
  rw [isText, List.cons_append] at read ⊢
  rw [readItem?, run_then (run_peek visible _)]
  split
  · rename_i isNone
    cases isNone
  · rename_i isEnd
    cases isEnd
    exact absurd rfl noEnd
  · rw [if_pos rfl, run_then read]
    rfl

/-- A later item of a list is read behind its comma. -/
theorem readItem_later (opens : json.Opens) (reads : Reads item json value) (rest : List Char) :
    (readItem? false item).run (',' :: (json.written ++ rest)) = .ok (some value, rest) := by
  obtain ⟨c, tail, isText, visible, -, noEnd⟩ := opens
  have read := reads rest
  rw [isText, List.cons_append] at read ⊢
  rw [readItem?, run_then (run_peek (by decide) _)]
  show (drop >>= fun _ => peek >>= _).run _ = _
  rw [run_then (run_drop _ _), run_then (run_peek visible _)]
  split
  · rename_i isNone
    cases isNone
  · rename_i isEnd
    cases isEnd
    exact absurd rfl noEnd
  · rw [run_then read]
    rfl

theorem readItems_later
    (reads : ∀ value ∈ values, (toJson value).Opens ∧ Reads item (toJson value) value)
    {fuel : Nat} (enough : values.length < fuel) (rest : List Char) :
    (readItems item fuel false).run
        (((values.map toJson).map written).flatMap (',' :: ·) ++ ']' :: rest) =
      .ok (values, ']' :: rest) := by
  induction values generalizing fuel with
  | nil =>
      obtain ⟨fuel, rfl⟩ := Nat.exists_eq_add_one_of_ne_zero (Nat.ne_of_gt enough)
      rfl
  | cons value values ih =>
      obtain ⟨fuel, rfl⟩ := Nat.exists_eq_add_one_of_ne_zero (Nat.ne_zero_of_lt enough)
      obtain ⟨opens, read⟩ := reads value List.mem_cons_self
      have later := ih (fun next isLater => reads next (List.mem_cons_of_mem value isLater))
        (Nat.lt_of_succ_lt_succ enough)
      rw [List.map_cons, List.map_cons, List.flatMap_cons, List.append_assoc, List.cons_append,
        readItems, run_then (readItem_later opens read _), run_then later]
      rfl

theorem readItems_written
    (reads : ∀ value ∈ values, (toJson value).Opens ∧ Reads item (toJson value) value)
    {fuel : Nat} (enough : values.length < fuel) (rest : List Char) :
    (readItems item fuel true).run
        (joined ((values.map toJson).map written) ++ ']' :: rest) =
      .ok (values, ']' :: rest) := by
  obtain ⟨fuel, rfl⟩ := Nat.exists_eq_add_one_of_ne_zero (Nat.ne_zero_of_lt enough)
  cases values with
  | nil => rfl
  | cons value values =>
      obtain ⟨opens, read⟩ := reads value List.mem_cons_self
      have later := readItems_later
        (fun next isLater => reads next (List.mem_cons_of_mem value isLater))
        (Nat.lt_of_succ_lt_succ enough) rest
      rw [List.map_cons, List.map_cons, joined_cons, List.append_assoc, readItems,
        run_then (readItem_first opens read _), run_then later]
      rfl

theorem length_lt_joined (items : List (List Char)) (filled : ∀ item ∈ items, item ≠ [])
    (rest : List Char) (c : Char) : items.length < (joined items ++ c :: rest).length + 1 := by
  have shorter : items.length ≤ (joined items).length := by
    cases items with
    | nil => exact Nat.le_refl 0
    | cons first later =>
        have laterShorter : later.length ≤ (later.flatMap (',' :: ·)).length := by
          clear filled
          induction later with
          | nil => exact Nat.le_refl 0
          | cons next later ih =>
              rw [List.flatMap_cons, List.length_append, List.length_cons, List.length_cons]
              omega
        have firstFilled := List.length_pos_iff.mpr (filled first List.mem_cons_self)
        rw [joined_cons, List.length_append, List.length_cons]
        omega
  rw [List.length_append]
  omega

/-- A list is read back if its items are. -/
theorem reads_list {item : Nat → Read α} {room : Nat}
    (reads : ∀ value ∈ values, (toJson value).Opens ∧ Reads (item room) (toJson value) value) :
    Reads (readList (room + 1) item) (.array (values.map toJson)) values := by
  intro rest
  have enough : values.length <
      (joined ((values.map toJson).map written) ++ ']' :: rest).length + 1 := by
    have filled : ∀ text ∈ (values.map toJson).map written, text ≠ [] := by
      intro text isText
      obtain ⟨json, isJson, rfl⟩ := List.mem_map.mp isText
      obtain ⟨value, isValue, rfl⟩ := List.mem_map.mp isJson
      obtain ⟨⟨c, tail, isText, -⟩, -⟩ := reads value isValue
      rw [isText]
      exact List.cons_ne_nil _ _
    have shorter := length_lt_joined _ filled rest ']'
    rwa [List.length_map, List.length_map] at shorter
  rw [written_array, List.cons_append, List.append_assoc, List.singleton_append,
    readList, run_then (run_peek (by decide) _)]
  show (drop >>= fun _ => get >>= fun text =>
    readItems (item room) (text.length + 1) true >>= fun items =>
      endArray >>= fun _ => pure items).run _ = _
  rw [run_then (run_drop _ _), run_then (run_get _), run_then (readItems_written reads enough rest)]
  rfl

end Lists

/-! ## Members -/

section Members

variable {member : String → σ → Read σ} {state next last : σ}

/-- A reader of members goes from one state to another over the members of an object. -/
inductive Gathers (member : String → σ → Read σ) : σ → List (String × Json) → σ → Prop
  | nothing (state : σ) : Gathers member state [] state
  | more {state next last : σ} {key : String} {json : Json} {later : List (String × Json)}
      (first : ReadsField (member key state) json next) (gathers : Gathers member next later last) :
      Gathers member state ((key, json) :: later) last

theorem Gathers.append {before after : List (String × Json)}
    (first : Gathers member state before next) (second : Gathers member next after last) :
    Gathers member state (before ++ after) last := by
  induction first with
  | nothing => exact second
  | more read _ ih => exact .more read (ih second)

/-- The key of the first member is read. -/
theorem readKey_first (key : String) (rest : List Char) :
    (readKey? readString true).run ((quote key).toList ++ rest) = .ok (some key, rest) := by
  rw [toList_quote, List.cons_append, readKey?, run_then (run_peek (by decide) _)]
  show (drop >>= fun _ => readString >>= fun key => pure (some key)).run _ = _
  rw [run_then (run_drop _ _), run_then (readString_quote key rest)]
  rfl

/-- The key of a later member is read behind its comma. -/
theorem readKey_later (key : String) (rest : List Char) :
    (readKey? readString false).run (',' :: ((quote key).toList ++ rest)) =
      .ok (some key, rest) := by
  rw [toList_quote, readKey?, run_then (run_peek (by decide) _)]
  show (drop >>= fun _ => peek >>= _).run _ = _
  rw [run_then (run_drop _ _), List.cons_append, run_then (run_peek (by decide) _)]
  show (drop >>= fun _ => readString >>= fun key => pure (some key)).run _ = _
  rw [run_then (run_drop _ _), run_then (readString_quote key rest)]
  rfl

theorem readMembers_later {members : List (String × Json)}
    (gathers : Gathers member state members last) {fuel : Nat} (enough : members.length < fuel)
    (rest : List Char) :
    (readMembers readString member fuel false state).run
        ((members.map writtenMember).flatMap (',' :: ·) ++ '\x7d' :: rest) =
      .ok (last, '\x7d' :: rest) := by
  induction gathers generalizing fuel with
  | nothing =>
      obtain ⟨fuel, rfl⟩ := Nat.exists_eq_add_one_of_ne_zero (Nat.ne_of_gt enough)
      rfl
  | @more state next last key json later first _ ih =>
      obtain ⟨fuel, rfl⟩ := Nat.exists_eq_add_one_of_ne_zero (Nat.ne_zero_of_lt enough)
      have read := ih (Nat.lt_of_succ_lt_succ enough)
      rw [List.map_cons, List.flatMap_cons, List.append_assoc, List.cons_append, writtenMember,
        List.append_assoc, readMembers, run_then (readKey_later key _)]
      show (member key state >>= _).run (':' :: (json.written ++ _)) = _
      rw [run_then (first _), read]

theorem readMembers_written {members : List (String × Json)}
    (gathers : Gathers member state members last) {fuel : Nat} (enough : members.length < fuel)
    (rest : List Char) :
    (readMembers readString member fuel true state).run
        (joined (members.map writtenMember) ++ '\x7d' :: rest) =
      .ok (last, '\x7d' :: rest) := by
  obtain ⟨fuel, rfl⟩ := Nat.exists_eq_add_one_of_ne_zero (Nat.ne_zero_of_lt enough)
  cases gathers with
  | nothing => rfl
  | @more _ next _ key json later first gathers =>
      have read := readMembers_later gathers (Nat.lt_of_succ_lt_succ enough) rest
      rw [List.map_cons, joined_cons, List.append_assoc, writtenMember, List.append_assoc,
        readMembers, run_then (readKey_first key _)]
      show (member key state >>= _).run (':' :: (json.written ++ _)) = _
      rw [run_then (first _), read]

variable {members : List (String × Json)}

/-- The members of an object are gathered up to its closing brace, whatever is done with them. -/
theorem run_members (gathers : Gathers member state members last) (finish : σ → Read α)
    (rest : List Char) :
    (get >>= fun text : List Char =>
        readMembers readString member (text.length + 1) true state >>= finish).run
        (joined (members.map writtenMember) ++ '\x7d' :: rest) =
      (finish last).run ('\x7d' :: rest) := by
  have enough : members.length <
      (joined (members.map writtenMember) ++ '\x7d' :: rest).length + 1 := by
    have filled : ∀ text ∈ members.map writtenMember, text ≠ [] := by
      intro text isText
      obtain ⟨member, -, rfl⟩ := List.mem_map.mp isText
      exact List.append_ne_nil_of_right_ne_nil _ (List.cons_ne_nil _ _)
    have shorter := length_lt_joined _ filled rest '\x7d'
    rwa [List.length_map] at shorter
  rw [run_then (run_get _), run_then (readMembers_written gathers enough rest)]

/-- A record is read back from an object if its members lead to it. -/
theorem reads_record {expected : String} {room : Nat} {fromArray fromObject : Nat → Read α}
    {finish : σ → Read α} (gathers : Gathers member state members last)
    (isObject : fromObject room = get >>= fun text : List Char =>
      readMembers readString member (text.length + 1) true state >>= finish)
    (finished : finish last = pure value) :
    Reads (readRecord expected (room + 1) fromArray fromObject) (.object members) value := by
  intro rest
  rw [written_object, List.cons_append, List.append_assoc, List.singleton_append, readRecord,
    run_then (run_peek (by decide) _)]
  show (drop >>= fun _ => fromObject room >>= fun value =>
    endObject >>= fun _ => pure value).run _ = _
  have read := run_members gathers finish rest
  rw [← isObject, finished] at read
  rw [run_then (run_drop _ _), run_then read]
  rfl

end Members

/-! ## Cases -/

section Cases

variable {plain : String → Read α} {tagged : Nat → String → Read α}

/-- A case without data is read back from its name. -/
theorem reads_plain {name : String} (room : Nat) (isCase : plain name = pure value) :
    Reads (readCase room plain tagged) (.text name) value := by
  intro rest
  rw [written_text, toList_quote, List.cons_append, readCase, run_then (run_peek (by decide) _)]
  show (drop >>= fun _ => readString >>= plain).run _ = _
  rw [run_then (run_drop _ _), run_then (readString_quote name rest), isCase]
  rfl

/-- A case with data is read back from an object with its name as the only key. -/
theorem reads_tagged {room : Nat} {name : String}
    (isCase : ReadsField (tagged room name) json value) :
    Reads (readCase (room + 1) plain tagged) (.object [(name, json)]) value := by
  intro rest
  have isText : (Json.object [(name, json)]).written ++ rest =
      '\x7b' :: '"' :: ((name.toList.flatMap escape ++ ['"']) ++
        ':' :: (json.written ++ '\x7d' :: rest)) := by
    rw [written_object]
    simp [joined, writtenMember, toList_quote]
  rw [isText, readCase, run_then (run_peek (by decide) _)]
  show (drop >>= fun _ => peek >>= _).run _ = _
  rw [run_then (run_drop _ _), run_then (run_peek (by decide) _)]
  show (drop >>= fun _ => readString >>= fun name => tagged room name >>= fun value =>
    endObject >>= fun _ => pure value).run _ = _
  rw [run_then (run_drop _ _), run_then (readString_quote name _), run_then (isCase _)]
  rfl

end Cases

/-- A whole text is read if it is what was written. -/
theorem readWhole_compact {item : Nat → Read α} (reads : Reads (item maxRoom) json value) :
    readWhole item json.compact = .ok value := by
  have read := reads []
  rw [List.append_nil, written] at read
  rw [readWhole, read]
  rfl

end PathCover.Json
