import Sexpr.Proofs.KeptComments
import Sexpr.Proofs.Node.Tokens

/-! Line ends: a carriage return before every line feed makes no difference to what a text reads as, unless
a string goes over the end of a line. -/

namespace Sexpr

/-- A text with a carriage return before every line feed. -/
def withReturns (text : List Char) : List Char :=
  text.flatMap fun char => if char = '\n' then ['\r', '\n'] else [char]

/-- A string literal of a text: the source text of a string that is read, or all that is left from a
quote on which no other closes. -/
inductive StringIn (text : List Char) : List Char → Prop
  | closed {tokens : List Token} {place : Location} {rest : List Char} {token : Token}
      (read : Reads {} text tokens place rest) (member : token ∈ tokens)
      (string : token.kind = .string) : StringIn text token.raw.toList
  | unclosed {tokens : List Token} {place : Location} {contents : List Char}
      (read : Reads {} text tokens place ('"' :: contents))
      (endless : ∀ body rest, StringBody body → contents ≠ body ++ '"' :: rest) :
      StringIn text ('"' :: contents)

namespace Token

/-- The character behind a token in its text. -/
def next? (text : List Char) (token : Token) : Option Char := do
  let start ← token.location.offsetIn text
  text[start + token.raw.length]?

/-- A comment that a line feed follows, with the carriage return that then ends its source text. Any other
token stays as it is. -/
def withReturn (text : List Char) (token : Token) : Token :=
  if token.kind = .comment ∧ token.next? text = some '\n' then
    { token with raw := token.raw ++ "\r" }
  else token

/-- A carriage return at the end of its source text changes neither what a token means nor where it stands. -/
theorem keeps_withReturn (text : List Char) : Keeps (withReturn text) id := by
  -- Only the source text differs between the two branches.
  constructor
  · intro token
    unfold withReturn
    split <;> rfl
  · intro token
    unfold withReturn
    split <;> rfl

/-- What becomes of a token where it stands depends on the first character behind its source text. -/
theorem withReturn_eq (path : Option Path) (before raw rest : List Char) (lexeme : Lexeme)
    {place : Location} (here : place = positionAt path (before ++ (raw ++ rest)) before.length) :
    withReturn (before ++ (raw ++ rest)) { lexeme, raw := String.ofList raw, location := place } =
      { lexeme
        raw := if lexeme.kind = .comment ∧ rest.head? = some '\n' then
          String.ofList (raw ++ ['\r']) else String.ofList raw
        location := place } := by
  -- The token gets its carriage return if it is a comment and a line feed is behind it.
  have start : before.length ≤ (before ++ (raw ++ rest)).length := by simp
  -- The offset of the position is that of the source text, and the next character stands behind it.
  have next : next? (before ++ (raw ++ rest))
      { lexeme, raw := String.ofList raw, location := place } = rest.head? := by
    simp only [next?, here, offsetIn_positionAt path start, Bind.bind, Option.bind,
      String.length_ofList]
    rw [← List.append_assoc, ← List.length_append, List.getElem?_append_right (Nat.le_refl _),
      Nat.sub_self, List.head?_eq_getElem?]
  rw [withReturn, next]
  by_cases fed : lexeme.kind = .comment ∧ rest.head? = some '\n'
  · simp [Token.kind, fed, String.ofList_append]
  · simp [Token.kind, fed]

end Token

@[simp] theorem withReturns_nil : withReturns [] = [] := rfl

@[simp] theorem withReturns_append (text more : List Char) :
    withReturns (text ++ more) = withReturns text ++ withReturns more :=
  List.flatMap_append

theorem withReturns_cons {char : Char} (other : char ≠ '\n') (text : List Char) :
    withReturns (char :: text) = char :: withReturns text := by
  simp [withReturns, other]

/-- Within a line nothing changes. -/
theorem withReturns_of_inLine {line : List Char} (inLine : '\n' ∉ line) : withReturns line = line := by
  -- By induction each character of the line stays as it is.
  induction line with
  | nil => rfl
  | cons char line ih =>
    obtain ⟨other, more⟩ := not_or.mp (mt List.mem_cons.mpr inLine)
    rw [withReturns_cons (Ne.symm other), ih more]

/-- A carriage return is in front only where a line feed was. -/
theorem head?_withReturns_ne {rest : List Char} (further : rest.head? ≠ some '\n')
    (noReturn : '\r' ∉ rest) : (withReturns rest).head? ≠ some '\r' := by
  -- A carriage return is put only where a line feed is.
  cases rest with
  | nil => simp [withReturns]
  | cons char rest =>
    have other : char ≠ '\n' := by simpa using further
    rw [withReturns_cons other]
    intro first
    exact noReturn (Option.some.inj first ▸ List.mem_cons_self)

/-- An atom may still end where it could, as a carriage return is as good as a line feed. -/
theorem endsAtom_withReturns {rest : List Char} (ends : endsAtom rest.head? = true) :
    endsAtom (withReturns rest).head? = true := by
  -- A line feed gets a carriage return in front of it, which ends an atom as well.
  cases rest with
  | nil => rfl
  | cons char rest =>
    by_cases feed : char = '\n'
    · subst feed
      rfl
    · rw [withReturns_cons feed]
      exact ends

/-- What may end a lexeme still may, unless the lexeme is a comment and a line feed follows. -/
theorem Lexeme.Ends.withReturns {lexeme : Lexeme} {rest : List Char} (ends : lexeme.Ends rest)
    (apart : ¬ (lexeme.kind = .comment ∧ rest.head? = some '\n')) :
    lexeme.Ends (withReturns rest) := by
  -- A word ends at what it ended at, or at a carriage return.
  refine ⟨fun word => endsAtom_withReturns (ends.word word), fun comment => ?_⟩
  -- A comment that no line feed follows stands at the end of the text.
  rcases ends.comment comment with ended | fed
  · obtain rfl := List.head?_eq_none_iff.mp ended
    exact Or.inl rfl
  · exact absurd ⟨comment, fed⟩ apart

/-- A line feed is a delimiter, which no word holds. -/
theorem lineFeed_of_inside {word : List Char} (inside : ∀ char ∈ word, isDelimiter char = false) :
    '\n' ∉ word := by
  intro member
  cases inside '\n' member

/-- Only a string can go over the end of a line. -/
theorem Spells.inLine {raw : List Char} {lexeme : Lexeme} (spelled : Spells raw lexeme)
    (inLine : lexeme.kind = .string → '\n' ∉ raw) : '\n' ∉ raw := by
  -- The case is the spelling, and only a string could hold a line feed.
  cases spelled with
  | listOpen => decide
  | listClose => decide
  | comment inside => simpa using inside
  | string complete => exact inLine rfl
  | number literal denotes => exact lineFeed_of_inside literal.inside
  | bool value => cases value <;> decide
  | identifier name => exact lineFeed_of_inside name.inside

/-- A comment's line with a carriage return behind it spells the same comment, if the line had none. -/
theorem Spells.comment_withReturn {line : List Char} (inLine : '\n' ∉ line) (noReturn : '\r' ∉ line) :
    Spells (';' :: line ++ ['\r']) (.atom (.comment (String.ofList (dropReturn line)))) := by
  -- The carriage return at the end is dropped, and the line had none to drop.
  have plain : dropReturn line = line := by
    rw [dropReturn, if_neg fun last => noReturn (List.mem_of_getLast? last)]
  have dropped : dropReturn (line ++ ['\r']) = dropReturn line := by
    rw [plain]
    simp [dropReturn]
  have spelled : Spells (';' :: (line ++ ['\r'])) _ := .comment (by simp [inLine])
  rwa [dropped] at spelled

namespace Reads

/-- Reading that goes on passes the blank that comes first. -/
theorem behind_blank {place final : Location} {char : Char} {text rest : List Char}
    {tokens : List Token} (read : Reads place (char :: text) tokens final rest)
    (blank : isBlank char = true) (further : rest ≠ char :: text) :
    Reads (place.advance char) text tokens final rest := by
  -- The reading of a text that opens with a blank passes it.
  generalize same : char :: text = all at read
  cases read with
  | done => exact absurd same.symm further
  | blank _ more =>
    obtain ⟨rfl, rfl⟩ := List.cons.inj same
    exact more
  | token spelled ends more =>
    -- No source text opens with a blank.
    obtain ⟨first, behind, rfl, notBlank, -⟩ := spelled.opens
    obtain ⟨rfl, -⟩ := List.cons.inj same
    rw [blank] at notBlank
    cases notBlank

/-- A comment takes in the carriage return before the line feed that follows it. -/
theorem comment_withReturn {place final : Location} {line behind rest : List Char}
    {tokens : List Token} (inLine : '\n' ∉ line) (noReturn : '\r' ∉ line)
    (more : Reads (place.advanceOver (';' :: line)) ('\r' :: '\n' :: behind) tokens final rest)
    (further : rest ≠ '\r' :: '\n' :: behind) :
    Reads place (';' :: line ++ '\r' :: '\n' :: behind)
      ({ lexeme := .atom (.comment (String.ofList (dropReturn line)))
         raw := String.ofList (';' :: line ++ ['\r'])
         location := place } :: tokens) final rest := by
  -- The comment with its carriage return is a token that the line feed ends.
  have spelled := Spells.comment_withReturn inLine noReturn
  have fed : Lexeme.Ends (.atom (.comment (String.ofList (dropReturn line)))) ('\n' :: behind) :=
    Lexeme.ends_of_comment rfl (Or.inr rfl)
  -- What was a blank behind the comment is now its last character.
  have moreBehind : Reads (place.advanceOver (';' :: line ++ ['\r'])) ('\n' :: behind) tokens final
      rest := by
    rw [Location.advanceOver_append]
    exact more.behind_blank rfl further
  have whole := Reads.token spelled fed moreBehind
  rwa [List.append_assoc, List.singleton_append] at whole

/-- A text with carriage returns reads as the same tokens, with those that belong to comments. -/
theorem withReturns {place final : Location} {text rest : List Char} {tokens : List Token}
    (read : Reads place text tokens final rest) (path : Option Path) (further : rest.head? ≠ some '\n') :
    ∀ before, place = positionAt path (before ++ text) before.length → '\r' ∉ text →
      (∀ token ∈ tokens, token.kind = .string → '\n' ∉ token.raw.toList) →
      Reads place (withReturns text) (tokens.map (Token.withReturn (before ++ text))) final
        (withReturns rest) := by
  -- What has been read moves to the part before, which tells where each token stands.
  induction read with
  | done => exact fun _ _ _ _ => .done
  | @blank place final char text rest tokens blank _ ih =>
    intro before here noReturn inLine
    subst here
    have moved := positionAt_append path before [char] text
    have more := ih further (before ++ [char]) (by simpa [Location.advanceOver] using moved.symm)
      (fun member => noReturn (List.mem_cons_of_mem char member)) inLine
    rw [List.append_assoc, List.singleton_append] at more
    by_cases feed : char = '\n'
    · -- The carriage return is one more blank, which does not show behind the line feed.
      subst feed
      exact .blank rfl (.blank rfl more)
    · rw [withReturns_cons feed]
      exact .blank blank more
  | @token place final raw text rest lexeme tokens spelled ends read ih =>
    intro before here noReturn inLine
    obtain ⟨noReturnRaw, noReturnText⟩ := not_or.mp (mt List.mem_append.mpr noReturn)
    obtain ⟨inLineRaw, inLineMore⟩ := List.forall_mem_cons.mp inLine
    have moved : place.advanceOver raw =
        positionAt path (before ++ raw ++ text) (before ++ raw).length := by
      rw [here, List.append_assoc, positionAt_append]
    have more := ih further (before ++ raw) moved noReturnText inLineMore
    rw [List.append_assoc] at more
    have line : '\n' ∉ raw := spelled.inLine (by simpa [Token.kind] using inLineRaw)
    rw [withReturns_append, withReturns_of_inLine line, List.map_cons,
      Token.withReturn_eq path before raw text lexeme here]
    by_cases fed : lexeme.kind = .comment ∧ text.head? = some '\n'
    · rw [if_pos fed]
      obtain ⟨behind, rfl⟩ := List.head?_eq_some_iff.mp fed.2
      cases spelled with
      | @comment line inside =>
        -- Reading does not stop at the line feed, so it does not stop before the carriage return.
        obtain ⟨run, parts, -, -⟩ := read.cut
        have noReturnRest : '\r' ∉ rest := fun member => noReturnText (by simp [parts, member])
        refine comment_withReturn inside (fun member => noReturnRaw (List.mem_cons_of_mem _ member))
          more fun same => head?_withReturns_ne further noReturnRest ?_
        rw [same]
        rfl
      | string => cases fed.1
      | number => cases fed.1
      | bool => cases fed.1
      | identifier => cases fed.1
      | listOpen => cases fed.1
      | listClose => cases fed.1
    · rw [if_neg fed]
      exact .token spelled (ends.withReturns fed) more

/-- The strings that are read are literals of the text, whatever its file. -/
theorem stringIn {path : Option Path} {place : Location} {text rest : List Char} {tokens : List Token}
    (read : Reads { path } text tokens place rest) :
    ∀ token ∈ tokens, token.kind = .string → StringIn text token.raw.toList := by
  -- The tokens are read from the start of the text.
  intro token member string
  have among : token.withPath none ∈ tokens.map (Token.withPath · none) :=
    List.mem_map.mpr ⟨token, member, rfl⟩
  exact @StringIn.closed text _ _ _ (token.withPath none) (read.withPath none) among string

end Reads

/-- What cannot be read on cannot be read on with carriage returns either, for the same reason. -/
theorem Refuses.withReturns {place : Location} {text : List Char} {error : Error}
    (refused : Refuses place text error)
    (inLine : ∀ contents, text = '"' :: contents →
      (∀ body rest, StringBody body → contents ≠ body ++ '"' :: rest) → '\n' ∉ text) :
    Refuses place (withReturns text) error := by
  -- A word at which reading fails lies within a line, and so does a string that is not closed.
  cases refused with
  | unclosed endless =>
    rw [withReturns_of_inLine (inLine _ rfl endless)]
    exact .unclosed endless
  | misread inside ends starts noLiteral =>
    rw [withReturns_append, withReturns_of_inLine (lineFeed_of_inside inside)]
    exact .misread inside (endsAtom_withReturns ends) starts noLiteral
  | excessive literal ends excessive =>
    rw [withReturns_append, withReturns_of_inLine (lineFeed_of_inside literal.inside)]
    exact .excessive literal (endsAtom_withReturns ends) excessive

/-- The string literals of a text that has tokens are the source texts of its strings. -/
theorem StringIn.of_tokenize {text : String} {path : Option Path} {tokens : List Token}
    (scanned : tokenize text path = .ok tokens) {literal : List Char}
    (found : StringIn text.toList literal) :
    ∃ token ∈ tokens, token.kind = .string ∧ literal = token.raw.toList := by
  -- The string is one of the tokens that were read, and the text has only one reading.
  obtain ⟨final, whole⟩ := tokenize_eq_ok_iff.mp scanned
  have alone := tokenize_of_reads (whole.withPath none)
  cases found with
  | @closed some place rest token read member string =>
    -- Reading goes on from there to the end of the text, or fails, and then the text has no tokens.
    rcases reads_cases place rest with ⟨more, last, readMore⟩ | ⟨more, last, left, error, readMore, refused⟩
    · have same := tokenize_of_reads (read.append readMore)
      rw [alone, Except.ok.injEq] at same
      have among : token ∈ tokens.map (Token.withPath · none) := same ▸ List.mem_append_left _ member
      obtain ⟨original, inside, rfl⟩ := List.mem_map.mp among
      exact ⟨original, inside, string, rfl⟩
    · have failed := tokenize_of_refuses (read.append readMore) refused
      rw [alone] at failed
      cases failed
  | unclosed read endless =>
    have failed := tokenize_of_refuses read (.unclosed endless)
    rw [alone] at failed
    cases failed

/-- A text with carriage returns has the same tokens, at the same positions, or the same error. -/
theorem tokenize_eq_of_withReturns {text : String} (noReturn : '\r' ∉ text.toList)
    (inLine : ∀ literal, StringIn text.toList literal → '\n' ∉ literal) (path : Option Path) :
    tokenize (String.ofList (withReturns text.toList)) path =
      (tokenize text path).map (List.map (Token.withReturn text.toList)) := by
  -- The text reads to its end or stops at an error, and both are as they were with the carriage returns put in.
  have start := positionAt_zero path text.toList
  rcases reads_cases { path } text.toList with
    ⟨tokens, final, read⟩ | ⟨tokens, final, rest, error, read, refused⟩
  · have strings := fun token member string => inLine _ (read.stringIn token member string)
    have again := read.withReturns path (by simp) [] start.symm noReturn strings
    rw [tokenize_of_reads read]
    exact tokenize_of_reads (by simpa using again)
  · have strings := fun token member string => inLine _ (read.stringIn token member string)
    obtain ⟨char, behind, rfl, notBlank⟩ := refused.opens
    have further : (char :: behind).head? ≠ some '\n' := by
      intro first
      obtain rfl := Option.some.inj first
      cases notBlank
    have again := read.withReturns path further [] start.symm noReturn strings
    rw [tokenize_of_refuses read refused]
    refine tokenize_of_refuses (by simpa using again) (refused.withReturns fun contents same endless => ?_)
    rw [same]
    exact inLine _ (.unclosed (same ▸ read.withPath none) endless)

/-- A legible node agrees with itself, whatever becomes of its tokens. -/
theorem Node.Legible.agrees_mapTokens (change : Token → Token) {node : Node} (legible : node.Legible) :
    (node.mapTokens change).agrees node = true := by
  -- An atom agrees with itself whatever its tokens are, and by induction every child does.
  induction legible with
  | atom legible => exact legible.agrees_self _ _
  | @list children tokens _ ih =>
    rw [Node.mapTokens_list, Node.agrees, allAgree_iff_forall₂, List.forall₂_map_left_iff,
      List.forall₂_same]
    exact ih

/-- Line ends do not matter. Let a text have no carriage return, and no line feed within a string, closed
or not. With a carriage return before every line feed it has the same tokens at the same positions, and
only the source text of a comment that a line feed follows is longer by the carriage return; or it has
the same error. So it reads as nodes that agree, made of these tokens, or fails to with the same error. -/
theorem parseText_withReturns {text : String} (noReturn : '\r' ∉ text.toList)
    (inLine : ∀ literal, StringIn text.toList literal → '\n' ∉ literal) (path : Option Path) :
    tokenize (String.ofList (withReturns text.toList)) path =
        (tokenize text path).map (List.map (Token.withReturn text.toList)) ∧
      ∀ ignoreComments, parseText (String.ofList (withReturns text.toList)) path ignoreComments =
          (parseText text path ignoreComments).map
            (List.map (Node.mapTokens (Token.withReturn text.toList))) ∧
        ∀ nodes, parseText text path ignoreComments = .ok nodes →
          Node.allAgree (nodes.map (Node.mapTokens (Token.withReturn text.toList))) nodes = true := by
  -- The tokens are one lemma, and the forest follows from them.
  have scanned := tokenize_eq_of_withReturns noReturn inLine path
  refine ⟨scanned, fun ignoreComments => ⟨?_, fun nodes read => ?_⟩⟩
  · -- The tokens mean what they meant, so they make up the same forest, with the same comments in it.
    rw [parseText, scanned, parseText]
    cases tokenize text path with
    | error error => rfl
    | ok tokens =>
      have parsed := parse_mapTokens (Token.keeps_withReturn text.toList) tokens
      simp only [Except.map, Bind.bind, Except.bind, parsed]
      cases parse tokens with
      | error error => rfl
      | ok forest =>
        cases ignoreComments with
        | false => rfl
        | true => exact congrArg Except.ok (stripComments_mapTokens _ forest)
  · have legible : ∀ node ∈ nodes, node.Legible := by
      cases ignoreComments with
      | false => exact legible_of_parseText read
      | true => exact fun node member => (written_of_parseText read node member).1.legible
    rw [Node.allAgree_iff_forall₂, List.forall₂_map_left_iff, List.forall₂_same]
    exact fun node member => (legible node member).agrees_mapTokens _

/-- A comment takes in the carriage return at the end of its line, and a string on the next line stays
where it was. -/
theorem parseText_withReturns_comment : ∃ tokens nodes,
    '\r' ∉ ";a\n(\"b\")".toList ∧
      (∀ literal, StringIn ";a\n(\"b\")".toList literal → '\n' ∉ literal) ∧
      tokenize ";a\r\n(\"b\")" = .ok tokens ∧
      tokens.map Token.raw = [";a\r", "(", "\"b\"", ")"] ∧
      tokens.map Token.location = [{}, { line := 1 }, { line := 1, column := 1 },
        { line := 1, column := 4 }] ∧
      parseText ";a\r\n(\"b\")" none false = .ok nodes := by
  -- A comment with a line behind it is the token that changes.
  let note : Token := { lexeme := .atom (.comment "a"), raw := ";a" }
  let opened : Token := { lexeme := .listOpen, raw := "(", location := { line := 1 } }
  let inner : Token :=
    { lexeme := .atom (.string "b"), raw := "\"b\"", location := { line := 1, column := 1 } }
  let closed : Token :=
    { lexeme := .listClose, raw := ")", location := { line := 1, column := 4 } }
  have scanned : tokenize ";a\n(\"b\")" = .ok [note, opened, inner, closed] := by cbv
  have read : parseText ";a\n(\"b\")" none false =
      .ok [.atom (.comment "a") [note], .list [.atom (.string "b") [inner]] [opened, closed]] := by cbv
  have noReturn : '\r' ∉ ";a\n(\"b\")".toList := by decide
  have inLine : ∀ literal, StringIn ";a\n(\"b\")".toList literal → '\n' ∉ literal := by
    intro literal found
    obtain ⟨token, member, string, rfl⟩ := found.of_tokenize scanned
    -- Of the four tokens one is a string, and it lies within its line.
    simp only [List.mem_cons, List.not_mem_nil, or_false] at member
    rcases member with rfl | rfl | rfl | rfl
    · cases string
    · cases string
    · decide
    · cases string
  obtain ⟨scannedAgain, all⟩ := parseText_withReturns noReturn inLine none
  have written : String.ofList (withReturns ";a\n(\"b\")".toList) = ";a\r\n(\"b\")" := by decide
  rw [written, scanned] at scannedAgain
  have readAgain := (all false).1
  rw [written, read] at readAgain
  exact ⟨_, _, noReturn, inLine, scannedAgain, by decide, by decide, readAgain⟩

end Sexpr
