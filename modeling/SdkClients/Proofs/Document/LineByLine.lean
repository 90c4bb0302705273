import SdkClients.Jq.Run
import SdkClients.Proofs.Document.Loading
import SdkClients.Proofs.Json.TrailingReturn

set_option autoImplicit false

/-!
Documents that stand on lines.

Every line that is not blank gives what a file with nothing but this line gives, under the number
of the line. A text cut at a line feed is therefore loaded as its two parts are, with the numbers of
the second part behind those of the first. The only line that two cuts see differently is the one in
front of the feed: it keeps a carriage return where its text ends, and loses it where a line feed
follows. The return is a blank, so neither the line nor its value is another one without it.
-/

namespace SdkClients

/-! ### Lines -/

namespace Text

private theorem pieces_eq_splitOn (separator : Char) (text : List Char) :
    pieces separator text = text.splitOn separator := by
  induction text with
  | nil => rfl
  | cons character others ih =>
      rw [pieces, List.splitOn_cons_eq_if_modifyHead, ih]
      simp only [beq_iff_eq]
      split_ifs
      · rfl
      · cases cut : others.splitOn separator with
        | nil => exact absurd cut (List.splitOn_ne_nil separator others)
        | cons piece later => rfl

private theorem pieces_append (separator : Char) (first second : List Char) :
    pieces separator (first ++ separator :: second) =
      pieces separator first ++ pieces separator second := by
  simp only [pieces_eq_splitOn]
  exact List.splitOn_append_cons_self first second

private theorem length_pieces (separator : Char) (text : List Char) :
    (pieces separator text).length = text.count separator + 1 := by
  induction text with
  | nil => rfl
  | cons character others ih =>
      rw [pieces, List.count_cons]
      by_cases same : character = separator
      · rw [if_pos same, if_pos (beq_iff_eq.mpr same), List.length_cons, ih]
      · rw [if_neg same, if_neg (mt beq_iff_eq.mp same), Nat.add_zero]
        cases cut : pieces separator others with
        | nil => rw [cut] at ih; cases ih
        | cons piece later => rw [cut] at ih; exact ih

private theorem withoutReturn_cases (line : List Char) :
    withoutReturn line = line ∨ line = withoutReturn line ++ ['\r'] := by
  unfold withoutReturn
  split_ifs with ended
  · exact .inr (List.dropLast_append_getLast? '\r' ended).symm
  · exact .inl rfl

private theorem isBlankLine_withoutReturn (line : List Char) :
    isBlankLine (withoutReturn line) = isBlankLine line := by
  rcases withoutReturn_cases line with same | ended
  · rw [same]
  · have blank : isBlank '\r' = true := by decide
    conv_rhs => rw [ended]
    simp [isBlankLine, blank]

end Text

namespace Document

/-! ### Single documents -/

section

variable [FilterEngine] {selection : Selection}

/-- The values that are wanted of a value, whatever its label. -/
def chosen? (selection : Selection) (value : Json.Value) : Option (List Json.Value) := do
  let part ← match selection.pointer with
    | none => some value
    | some pointer => Json.Pointer.select? pointer value
  match selection.filter with
  | none => some [part]
  | some expression => (FilterEngine.run expression part).toOption

private theorem select_eq_ok_iff {source : String} {value : Json.Value}
    {documents : List Document} :
    select selection ⟨source, value⟩ = .ok documents ↔
      ∃ values, chosen? selection value = some values ∧
        documents = values.map (Document.mk source) := by
  have filtered (part : Json.Value) : filter selection ⟨source, part⟩ = .ok documents ↔
      ∃ values, (match selection.filter with
          | none => some [part]
          | some expression => (FilterEngine.run expression part).toOption) = some values ∧
        documents = values.map (Document.mk source) := by
    unfold filter
    cases selection.filter with
    | none => simp [eq_comm]
    | some expression =>
        dsimp only
        cases FilterEngine.run expression part with
        | error failure => simp [Except.toOption]
        | ok values => simp [Except.toOption, eq_comm]
  unfold select point chosen?
  cases selection.pointer with
  | none => exact filtered value
  | some pointer =>
      cases selected : Json.Pointer.select? pointer value with
      | none => simp [selected]
      | some part => simpa [selected] using filtered part

private theorem gatherEach_select_iff (selection : Selection) {source : String} {value : Json.Value}
    {documents : List Document} :
    gatherEach (select selection) [⟨source, value⟩] = .ok documents ↔
      ∃ values, chosen? selection value = some values ∧
        documents = values.map (Document.mk source) := by
  rw [gatherEach_singleton, select_eq_ok_iff]

/-- A file that holds one line and nothing else gives these values as a whole. -/
def ReadsAlone (selection : Selection) (line : List Char) (values : List Json.Value) : Prop :=
  ∀ path, loadFile { selection with perLine := false } path (.ok (String.ofList line)) =
    .ok (values.map (Document.mk path))

private theorem readsAlone_iff {line : List Char} {values : List Json.Value} :
    ReadsAlone selection line values ↔
      ∃ value, Json.Value.parse (String.ofList line) = .ok value ∧
        chosen? selection value = some values := by
  have whole (path : String) (documents : List Document) :
      loadFile { selection with perLine := false } path (.ok (String.ofList line)) =
          .ok documents ↔ ∃ value, Json.Value.parse (String.ofList line) = .ok value ∧
        ∃ values, chosen? selection value = some values ∧
          documents = values.map (Document.mk path) := by
    rw [loadFile_eq_ok_iff]
    simp only [Except.ok.injEq, exists_eq_left', selectFromText_eq, allOfText, Bool.false_eq_true,
      if_false, ofText]
    cases Json.Value.parse (String.ofList line) with
    | error fault => simp [Except.map]
    | ok value =>
        refine (gatherEach_select_iff { selection with perLine := false }).trans ?_
        simp only [Except.ok.injEq, exists_eq_left']
        rfl
  have inj (path : String) : Function.Injective (List.map (Document.mk path)) :=
    List.map_injective_iff.mpr fun _ _ same => congrArg Document.value same
  constructor
  · intro alone
    obtain ⟨value, read, found, chosen, same⟩ := (whole "" _).mp (alone "")
    exact ⟨value, read, chosen.trans (congrArg some (inj "" same.symm))⟩
  · rintro ⟨value, read, chosen⟩ path
    exact (whole path _).mpr ⟨value, read, values, chosen, rfl⟩

private theorem readsAlone_withoutReturn {line : List Char} {values : List Json.Value} :
    ReadsAlone selection (Text.withoutReturn line) values ↔ ReadsAlone selection line values := by
  rcases Text.withoutReturn_cases line with same | ended
  · rw [same]
  · have parsed := Json.Value.parse_append_return (Text.withoutReturn line)
    rw [← ended] at parsed
    simp only [readsAlone_iff, ← toOption_eq_some_iff, parsed]

/-! ### Lines with their numbers -/

/-- What one line gives under its number: nothing if it is blank, and otherwise what it gives alone
without the carriage return that belongs to its end. -/
inductive LineGives (selection : Selection) (number : Nat) (line : List Char) :
    List (Nat × Json.Value) → Prop
  | blank : Text.isBlankLine line = true → LineGives selection number line []
  | read {values : List Json.Value} : Text.isBlankLine line = false →
      ReadsAlone selection (Text.withoutReturn line) values →
      LineGives selection number line (values.map fun value => (number, value))

/-- What lines give one after the other, the first of them with the given number. -/
inductive LinesGive (selection : Selection) :
    Nat → List (List Char) → List (Nat × Json.Value) → Prop
  | done {number : Nat} : LinesGive selection number [] []
  | next {number : Nat} {line : List Char} {others : List (List Char)}
      {own later : List (Nat × Json.Value)} : LineGives selection number line own →
      LinesGive selection (number + 1) others later →
      LinesGive selection number (line :: others) (own ++ later)

private theorem lineGives_of_blank {number : Nat} {line : List Char}
    {entries : List (Nat × Json.Value)}
    (blank : Text.isBlankLine line = true) :
    LineGives selection number line entries ↔ entries = [] := by
  constructor
  · intro gives
    cases gives with
    | blank => rfl
    | read filled => rw [blank] at filled; cases filled
  · rintro rfl
    exact .blank blank

private theorem lineGives_of_filled {number : Nat} {line : List Char}
    {entries : List (Nat × Json.Value)}
    (filled : Text.isBlankLine line = false) :
    LineGives selection number line entries ↔
      ∃ values, ReadsAlone selection (Text.withoutReturn line) values ∧
        entries = values.map fun value => (number, value) := by
  constructor
  · intro gives
    cases gives with
    | blank empty => rw [filled] at empty; cases empty
    | read _ alone => exact ⟨_, alone, rfl⟩
  · rintro ⟨values, alone, rfl⟩
    exact .read filled alone

private theorem lineGives_withoutReturn {number : Nat} {line : List Char}
    {entries : List (Nat × Json.Value)} :
    LineGives selection number (Text.withoutReturn line) entries ↔
      LineGives selection number line entries := by
  have blank := Text.isBlankLine_withoutReturn line
  constructor
  · intro gives
    cases gives with
    | blank empty => exact .blank (blank.symm.trans empty)
    | read filled alone => exact .read (blank.symm.trans filled) (readsAlone_withoutReturn.mp alone)
  · intro gives
    cases gives with
    | blank empty => exact .blank (blank.trans empty)
    | read filled alone => exact .read (blank.trans filled) (readsAlone_withoutReturn.mpr alone)

private theorem linesGive_cons_iff {number : Nat} {line : List Char} {others : List (List Char)}
    {entries : List (Nat × Json.Value)} :
    LinesGive selection number (line :: others) entries ↔
      ∃ own later, LineGives selection number line own ∧
        LinesGive selection (number + 1) others later ∧ entries = own ++ later := by
  constructor
  · intro give
    cases give with
    | next own later => exact ⟨_, _, own, later, rfl⟩
  · rintro ⟨own, later, first, rest, rfl⟩
    exact .next first rest

private theorem linesGive_append_iff {number : Nat} {first second : List (List Char)}
    {entries : List (Nat × Json.Value)} :
    LinesGive selection number (first ++ second) entries ↔
      ∃ before after, LinesGive selection number first before ∧
        LinesGive selection (number + first.length) second after ∧ entries = before ++ after := by
  induction first generalizing number entries with
  | nil =>
      constructor
      · intro give
        exact ⟨[], entries, .done, give, rfl⟩
      · rintro ⟨before, after, none, give, rfl⟩
        cases none
        exact give
  | cons line others ih =>
      have behind : number + 1 + others.length = number + (others.length + 1) := by omega
      simp only [List.cons_append, linesGive_cons_iff, ih, List.length_cons, behind]
      constructor
      · rintro ⟨own, _, first, ⟨before, after, early, late, rfl⟩, rfl⟩
        exact ⟨own ++ before, after, ⟨own, before, first, early, rfl⟩, late,
          (List.append_assoc own before after).symm⟩
      · rintro ⟨_, after, ⟨own, before, first, early, rfl⟩, late, rfl⟩
        exact ⟨own, before ++ after, first, ⟨before, after, early, late, rfl⟩,
          List.append_assoc own before after⟩

/-- The same value so many lines further down. -/
def moved (lines : Nat) (entry : Nat × Json.Value) : Nat × Json.Value := (entry.1 + lines, entry.2)

private theorem lineGives_add_iff {number lines : Nat} {line : List Char}
    {entries : List (Nat × Json.Value)} :
    LineGives selection (number + lines) line entries ↔
      ∃ others, LineGives selection number line others ∧ entries = others.map (moved lines) := by
  constructor
  · intro gives
    cases gives with
    | blank empty => exact ⟨[], .blank empty, rfl⟩
    | read filled alone =>
        refine ⟨_, .read filled alone, ?_⟩
        rw [List.map_map]
        rfl
  · rintro ⟨others, gives, rfl⟩
    cases gives with
    | blank empty => exact .blank empty
    | read filled alone =>
        rw [List.map_map]
        exact .read filled alone

private theorem linesGive_add_iff {number lines : Nat} {texts : List (List Char)}
    {entries : List (Nat × Json.Value)} :
    LinesGive selection (number + lines) texts entries ↔
      ∃ others, LinesGive selection number texts others ∧ entries = others.map (moved lines) := by
  induction texts generalizing number entries with
  | nil =>
      constructor
      · intro give
        cases give
        exact ⟨[], .done, rfl⟩
      · rintro ⟨others, give, rfl⟩
        cases give
        exact .done
  | cons line texts ih =>
      have behind : number + lines + 1 = number + 1 + lines := by omega
      simp only [linesGive_cons_iff, lineGives_add_iff, behind, ih]
      constructor
      · rintro ⟨_, _, ⟨own, first, rfl⟩, ⟨later, rest, rfl⟩, rfl⟩
        exact ⟨own ++ later, ⟨own, later, first, rest, rfl⟩, List.map_append.symm⟩
      · rintro ⟨_, ⟨own, later, first, rest, rfl⟩, rfl⟩
        exact ⟨_, _, ⟨own, first, rfl⟩, ⟨later, rest, rfl⟩, List.map_append⟩

private theorem linesGive_linesOfPieces {number : Nat} {pieces : List (List Char)}
    {entries : List (Nat × Json.Value)} :
    LinesGive selection number (Text.linesOfPieces pieces) entries ↔
      LinesGive selection number pieces entries := by
  induction pieces using Text.linesOfPieces.induct generalizing number entries with
  | case1 => rfl
  | case2 =>
      have empty : Text.isBlankLine [] = true := rfl
      constructor
      · intro give
        cases give
        exact .next (.blank empty) .done
      · intro give
        obtain ⟨own, later, first, rest, rfl⟩ := linesGive_cons_iff.mp give
        cases rest
        cases first with
        | blank => exact .done
        | read filled => cases filled
  | case3 last filled => rw [Text.linesOfPieces.eq_3 last filled]
  | case4 piece others filled unlast ih =>
      rw [Text.linesOfPieces.eq_4 piece others filled unlast]
      simp only [linesGive_cons_iff, lineGives_withoutReturn, ih]

/-! ### Texts -/

/-- The documents of a file, each labelled with the path and the number of its line. -/
def labelled (path : String) (entries : List (Nat × Json.Value)) : List Document :=
  entries.map fun entry => ⟨path ++ ":" ++ toString entry.1, entry.2⟩

private theorem gathers_ofLine (selection : Selection) (source : String) :
    Gathers fun lines => lines.mapM (ofLine source) >>= gatherEach (select selection) :=
  (gathers_mapM (ofLine source)).bind (gathers_gatherEach (select selection))

private theorem ofLine_eq_ok_iff {source : String} {number : Nat} {line : List Char}
    {documents : List Document} :
    ([(line, number)].mapM (ofLine source) >>= gatherEach (select selection)) = .ok documents ↔
      ∃ values, ReadsAlone selection (Text.withoutReturn line) values ∧
        documents = labelled source (values.map fun value => (number, value)) := by
  have single : [(line, number)].mapM (ofLine source) =
      (ofLine source (line, number)).map ([·]) := by
    rw [List.mapM_cons, List.mapM_nil]
    cases ofLine source (line, number) <;> rfl
  simp only [single, ofLine, readsAlone_withoutReturn]
  simp only [readsAlone_iff, labelled, List.map_map]
  cases Json.Value.parse (String.ofList line) with
  | error fault => simp [Except.map]
  | ok value =>
      refine (gatherEach_select_iff selection).trans ?_
      simp only [Except.ok.injEq, exists_eq_left']
      rfl

/-- What is made of the lines that are not blank is what all the lines give. -/
private theorem numbered_eq_ok_iff {source : String} {number : Nat} {lines : List (List Char)}
    {documents : List Document} :
    (((lines.zipIdx number).filter fun line => !Text.isBlankLine line.1).mapM (ofLine source) >>=
        gatherEach (select selection)) = .ok documents ↔
      ∃ entries, documents = labelled source entries ∧
        LinesGive selection number lines entries := by
  induction lines generalizing number documents with
  | nil =>
      constructor
      · intro made
        cases made
        exact ⟨[], rfl, .done⟩
      · rintro ⟨entries, rfl, give⟩
        cases give
        rfl
  | cons line others ih =>
      simp only [List.zipIdx_cons, List.filter_cons, linesGive_cons_iff]
      cases blank : Text.isBlankLine line with
      | true =>
          simp only [Bool.not_true, Bool.false_eq_true, if_false, ih, lineGives_of_blank blank]
          constructor
          · rintro ⟨entries, rfl, give⟩
            exact ⟨entries, rfl, [], entries, rfl, give, rfl⟩
          · rintro ⟨_, rfl, _, _, rfl, give, rfl⟩
            exact ⟨_, rfl, give⟩
      | false =>
          have chained := gathers_ofLine selection source [(line, number)]
            ((others.zipIdx (number + 1)).filter fun line => !Text.isBlankLine line.1) documents
          simp only [Bool.not_false, if_true, lineGives_of_filled blank]
          refine chained.trans ?_
          simp only [ofLine_eq_ok_iff, ih]
          constructor
          · rintro ⟨_, _, ⟨values, alone, rfl⟩, ⟨later, rfl, give⟩, rfl⟩
            exact ⟨_, List.map_append.symm, _, later, ⟨values, alone, rfl⟩, give, rfl⟩
          · rintro ⟨_, rfl, _, later, ⟨values, alone, rfl⟩, give, rfl⟩
            exact ⟨_, _, ⟨values, alone, rfl⟩, ⟨later, rfl, give⟩, List.map_append⟩

private theorem selectFromText_perLine_iff (perLine : selection.perLine = true)
    {source text : String}
    {documents : List Document} :
    selectFromText selection source text = .ok documents ↔
      ∃ entries, documents = labelled source entries ∧
        LinesGive selection 1 (Text.pieces '\n' text.toList) entries := by
  rw [selectFromText_eq, allOfText, if_pos perLine, numberedLines, numbered_eq_ok_iff]
  simp only [Text.lines, linesGive_linesOfPieces]

/-! ### Files -/

/-- An input that stands for a single file, with the text of that file. -/
structure Supplies (tree : FileTree) (input path text : String) : Prop where
  expands : expandInput tree input = .ok [path]
  reads : tree.read path = .ok text

private theorem load_of_supplies {tree : FileTree} {input path text : String}
    (supplies : Supplies tree input path text) :
    load tree selection [input] = loadFile selection path (.ok text) := by
  rw [load_eq, expandInputs_eq, gatherEach_singleton, supplies.expands, ok_bind,
    gatherEach_singleton, supplies.reads]

/-- Line by line, a file is loaded exactly if its lines give something, and that is what it is
loaded as. -/
private theorem load_perLine_iff (perLine : selection.perLine = true) {tree : FileTree}
    {input path text : String} (supplies : Supplies tree input path text)
    {documents : List Document} :
    load tree selection [input] = .ok documents ↔ ∃ entries, documents = labelled path entries ∧
      LinesGive selection 1 (Text.pieces '\n' text.toList) entries := by
  rw [load_of_supplies supplies, loadFile_eq_ok_iff]
  simp only [Except.ok.injEq, exists_eq_left', selectFromText_perLine_iff perLine]

private theorem linesGive_joined_iff {first second : String} {entries : List (Nat × Json.Value)} :
    LinesGive selection 1 (Text.pieces '\n' (first ++ "\n" ++ second).toList) entries ↔
      ∃ before after, LinesGive selection 1 (Text.pieces '\n' first.toList) before ∧
        LinesGive selection 1 (Text.pieces '\n' second.toList) after ∧
        entries = before ++ after.map (moved (first.toList.count '\n' + 1)) := by
  have cut : (first ++ "\n" ++ second).toList = first.toList ++ '\n' :: second.toList := by
    simp
  rw [cut, Text.pieces_append, linesGive_append_iff, Text.length_pieces]
  simp only [linesGive_add_iff]
  constructor
  · rintro ⟨before, _, early, ⟨after, late, rfl⟩, rfl⟩
    exact ⟨before, after, early, late, rfl⟩
  · rintro ⟨before, after, early, late, rfl⟩
    exact ⟨before, _, early, ⟨after, late, rfl⟩, rfl⟩

/-- Loading line by line goes over line breaks: a file with one text, a line feed and another text
is loaded exactly if files with the two texts are, and as their documents one behind the other. The
numbers of the second part go on behind the lines of the first. Line for line, that is what each
line gives alone, and nothing else keeps the file from being loaded. -/
theorem load_joined {tree firstTree secondTree : FileTree}
    {input firstInput secondInput path firstPath secondPath first second : String}
    (perLine : selection.perLine = true)
    (whole : Supplies tree input path (first ++ "\n" ++ second))
    (early : Supplies firstTree firstInput firstPath first)
    (late : Supplies secondTree secondInput secondPath second) :
    ((∃ documents, load tree selection [input] = .ok documents) ↔
      (∃ documents, load firstTree selection [firstInput] = .ok documents) ∧
        ∃ documents, load secondTree selection [secondInput] = .ok documents) ∧
    (∀ documents, load tree selection [input] = .ok documents →
      ∃ before after, load firstTree selection [firstInput] = .ok (labelled firstPath before) ∧
        load secondTree selection [secondInput] = .ok (labelled secondPath after) ∧
        documents =
          labelled path (before ++ after.map (moved (first.toList.count '\n' + 1)))) ∧
    ∀ documents, load tree selection [input] = .ok documents ↔
      ∃ entries, documents = labelled path entries ∧
        LinesGive selection 1 (Text.pieces '\n' (first ++ "\n" ++ second).toList) entries := by
  refine ⟨?_, ?_, ?_⟩
  · simp only [load_perLine_iff perLine whole, load_perLine_iff perLine early,
      load_perLine_iff perLine late, linesGive_joined_iff]
    constructor
    · rintro ⟨_, _, rfl, before, after, front, back, rfl⟩
      exact ⟨⟨_, before, rfl, front⟩, _, after, rfl, back⟩
    · rintro ⟨⟨_, before, rfl, front⟩, _, after, rfl, back⟩
      exact ⟨_, _, rfl, before, after, front, back, rfl⟩
  · intro documents loaded
    obtain ⟨entries, rfl, give⟩ := (load_perLine_iff perLine whole).mp loaded
    obtain ⟨before, after, front, back, rfl⟩ := linesGive_joined_iff.mp give
    exact ⟨before, after, (load_perLine_iff perLine early).mpr ⟨before, rfl, front⟩,
      (load_perLine_iff perLine late).mpr ⟨after, rfl, back⟩, rfl⟩
  · intro documents
    exact load_perLine_iff perLine whole

end

/-- Its last line ends in a return and nothing else. -/
def earlyText : String := "\r\n[1]\r\n \n2\r"

/-- A blank line that is no blank of a document, and no line at the end. -/
def lateText : String := "\u00a0\n3\n"

def lineFiles : FileTree :=
  ⟨.directory [("whole", .file (some (earlyText ++ "\n" ++ lateText))),
    ("early", .file (some earlyText)), ("late", .file (some lateText))], []⟩

theorem load_joined_lineFiles :
    ((load lineFiles ⟨true, none, none⟩ ["whole"]).toOption.map fun documents =>
        documents.map fun document => (document.source, document.value.render)) =
      some [("whole:2", "[1]"), ("whole:4", "2"), ("whole:6", "3")] ∧
    ∃ before after,
      load lineFiles ⟨true, none, none⟩ ["early"] = .ok (labelled "early" before) ∧
      load lineFiles ⟨true, none, none⟩ ["late"] = .ok (labelled "late" after) ∧
      load lineFiles ⟨true, none, none⟩ ["whole"] =
        .ok (labelled "whole" (before ++ after.map (moved 4))) := by
  have whole : Supplies lineFiles "whole" "whole" (earlyText ++ "\n" ++ lateText) := ⟨rfl, rfl⟩
  have early : Supplies lineFiles "early" "early" earlyText := ⟨rfl, rfl⟩
  have late : Supplies lineFiles "late" "late" lateText := ⟨rfl, rfl⟩
  have printed : ((load lineFiles ⟨true, none, none⟩ ["whole"]).toOption.map fun documents =>
      documents.map fun document => (document.source, document.value.render)) =
        some [("whole:2", "[1]"), ("whole:4", "2"), ("whole:6", "3")] := by
    decide +kernel
  obtain ⟨documents, found, -⟩ := Option.map_eq_some_iff.mp printed
  have loaded := toOption_eq_some_iff.mp found
  have perLine : Selection.perLine ⟨true, none, none⟩ = true := rfl
  obtain ⟨before, after, front, back, same⟩ :=
    (load_joined perLine whole early late).2.1 documents loaded
  exact ⟨printed, before, after, front, back, loaded.trans (congrArg Except.ok same)⟩

end Document

end SdkClients
