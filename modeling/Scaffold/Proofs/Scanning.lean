import Scaffold.Proofs.Lists
import Scaffold.Proofs.Spelling
/-!
The tokens of a text that is put together from words, variables, marks, blanks and comments. Reading
goes from left to right, and what follows a word decides where it ends; so the lemmas put a piece in
front of a text whose tokens are known.
-/
namespace Scaffold.Php

abbrev Word := Kind × String

def Token.word (t : Token) : Word :=
  (t.kind, t.text)

def Advancing : Nat → List Token → Prop
  | _, [] => True
  | pos, t :: ts => pos < t.stop ∧ Advancing t.stop ts

theorem Advancing.mono {pos pos' : Nat} {ts : List Token} (h : Advancing pos' ts)
    (hle : pos ≤ pos') : Advancing pos ts := by
  cases ts with
  | nil => trivial
  | cons t ts => exact ⟨Nat.lt_of_le_of_lt hle h.1, h.2⟩

def codeItems (pos : Nat) (cs : List Char) : List Item :=
  Scan.items ⟨.code, [], [], false⟩ pos cs

theorem codeItems_nil (pos : Nat) : codeItems pos [] = [] := by
  rw [codeItems, Scan.items]

theorem codeItems_skipped {c : Char} {cs : List Char} {n : Nat}
    (h : Lexeme.ofCode c cs = Lexeme.skipped n) (hn : 0 < n) (pos : Nat) :
    codeItems pos (c :: cs) =
      codeItems (pos + byteSize ((c :: cs).take n)) ((c :: cs).drop n) := by
  rw [codeItems, Scan.items]
  simp [Scan.enter, Lexeme.next, h, Lexeme.skipped, hn, Scan.after, Scan.after.settle,
    Scan.after.proceed, codeItems]

theorem codeItems_plain {c : Char} {cs : List Char} {n : Nat} {k : Kind}
    (h : Lexeme.ofCode c cs = Lexeme.plain k n) (hn : 0 < n) (pos : Nat) :
    codeItems pos (c :: cs) =
      .token ⟨k, String.ofList ((c :: cs).take n), pos, pos + byteSize ((c :: cs).take n)⟩ ::
        codeItems (pos + byteSize ((c :: cs).take n)) ((c :: cs).drop n) := by
  rw [codeItems, Scan.items]
  simp [Scan.enter, Lexeme.next, h, Lexeme.plain, hn, Scan.after, Scan.after.settle,
    Scan.after.proceed, Scan.give, codeItems]

/-- Whether code holds these words, wherever it starts. -/
def Scans (cs : List Char) (ws : List Word) : Prop :=
  ∀ pos, ∃ ts : List Token,
    codeItems pos cs = ts.map .token ∧ ts.map Token.word = ws ∧ Advancing pos ts

theorem scans_nil : Scans [] [] :=
  fun pos => ⟨[], codeItems_nil pos, rfl, trivial⟩

section

variable {c : Char} {cs rest : List Char} {ws : List Word} {k : Kind}

theorem scans_skip (more : List Char)
    (h : Lexeme.ofCode c (more ++ rest) = Lexeme.skipped (more.length + 1)) (hrest : Scans rest ws) :
    Scans (c :: (more ++ rest)) ws := by
  intro pos
  obtain ⟨ts, hts, hws, hadvancing⟩ := hrest (pos + byteSize (c :: more))
  have hitems := codeItems_skipped h (Nat.succ_pos _) pos
  rw [List.take_succ_cons, List.drop_succ_cons, List.take_left, List.drop_left] at hitems
  exact ⟨ts, hitems.trans hts, hws, hadvancing.mono (Nat.le_add_right _ _)⟩

theorem scans_take (more : List Char)
    (h : Lexeme.ofCode c (more ++ rest) = Lexeme.plain k (more.length + 1)) (hrest : Scans rest ws) :
    Scans (c :: (more ++ rest)) ((k, String.ofList (c :: more)) :: ws) := by
  intro pos
  obtain ⟨ts, hts, hws, hadvancing⟩ := hrest (pos + byteSize (c :: more))
  have hitems := codeItems_plain h (Nat.succ_pos _) pos
  rw [List.take_succ_cons, List.drop_succ_cons, List.take_left, List.drop_left, hts] at hitems
  refine ⟨_ :: ts, hitems, ?_, ?_, hadvancing⟩
  · rw [List.map_cons, hws]
    rfl
  · exact Nat.lt_add_of_pos_right (byteSize_pos (by simp))

/-! Blanks -/

theorem codeItems_dropSpaces (pos : Nat) (cs : List Char) :
    codeItems pos cs =
      codeItems (pos + byteSize (cs.takeWhile isSpace)) (cs.dropWhile isSpace) := by
  cases cs with
  | nil => simp [byteSize]
  | cons c cs =>
      by_cases hc : isSpace c = true
      · have hlexeme : Lexeme.ofCode c cs = Lexeme.skipped (1 + runSize isSpace cs) := by
          unfold Lexeme.ofCode
          rw [if_pos hc]
        have hsplit : c :: cs = (c :: cs).takeWhile isSpace ++ (c :: cs).dropWhile isSpace :=
          List.takeWhile_append_dropWhile.symm
        have hsize : 1 + runSize isSpace cs = ((c :: cs).takeWhile isSpace).length := by
          simp [runSize, hc, Nat.add_comm]
        rw [codeItems_skipped hlexeme (by omega), hsize]
        generalize (c :: cs).takeWhile isSpace = blanks at hsplit ⊢
        generalize (c :: cs).dropWhile isSpace = rest at hsplit ⊢
        rw [hsplit, List.take_left, List.drop_left]
      · simp [hc, byteSize]

theorem scans_blank (hc : isSpace c = true) (h : Scans cs ws) : Scans (c :: cs) ws := by
  intro pos
  obtain ⟨ts, hts, hws, hadvancing⟩ := h (pos + c.utf8Size)
  refine ⟨ts, ?_, hws, hadvancing.mono (Nat.le_add_right _ _)⟩
  rw [codeItems_dropSpaces, ← hts, codeItems_dropSpaces (pos + c.utf8Size)]
  simp only [List.takeWhile_cons, List.dropWhile_cons, hc, if_true]
  change codeItems (pos + (c.utf8Size + byteSize _)) _ = _
  rw [Nat.add_assoc]

theorem scans_blanks {blanks : List Char} (hb : ∀ c ∈ blanks, isSpace c = true)
    (h : Scans cs ws) : Scans (blanks ++ cs) ws := by
  induction blanks with
  | nil => exact h
  | cons c blanks ih =>
      exact scans_blank (hb c (by simp)) (ih fun d hd => hb d (by simp [hd]))

/-! Words -/

def IsIdentifier (cs : List Char) : Prop :=
  (∀ c ∈ cs.head?, c.isAlpha = true ∨ c = '_') ∧ cs ≠ [] ∧
    ∀ c ∈ cs, c.isAlphanum = true ∨ c = '_'

instance (cs : List Char) : Decidable (IsIdentifier cs) :=
  decidable_of_iff ((cs.head?.all fun c => c.isAlpha || c == '_') = true ∧ cs ≠ [] ∧
      (cs.all fun c => c.isAlphanum || c == '_') = true) (by cases cs <;> simp [IsIdentifier])

theorem IsIdentifier.not_mem {cs : List Char} (h : IsIdentifier cs) {d : Char}
    (hd : ¬(d.isAlphanum = true ∨ d = '_')) : d ∉ cs :=
  fun hmem => hd (h.2.2 d hmem)

theorem IsIdentifier.isNameChar {cs : List Char} (h : IsIdentifier cs) {c : Char} (hc : c ∈ cs) :
    isNameChar c = true := by
  rcases h.2.2 c hc with hc | rfl
  · rw [Char.isAlphanum, Bool.or_eq_true] at hc
    rcases hc with hc | hc <;> simp [Php.isNameChar, isNameStart, hc]
  · decide

theorem IsIdentifier.exists_cons {cs : List Char} (h : IsIdentifier cs) :
    ∃ c cs', cs = c :: cs' ∧ isNameStart c = true := by
  obtain ⟨c, cs', rfl⟩ := List.exists_cons_of_ne_nil h.2.1
  refine ⟨c, cs', rfl, ?_⟩
  rcases h.1 c rfl with hc | rfl
  · simp [isNameStart, hc]
  · decide

def EndsWord (cs : List Char) : Prop :=
  ∀ c ∈ cs.head?, c ∈ [' ', '\n', '|', '(']

theorem ofOpening?_eq_none {cs : List Char}
    (h : ∀ c ∈ cs.head?, c ≠ '\x27' ∧ c ≠ '\x22' ∧ c ≠ '<') (start : Nat) :
    Lexeme.ofOpening? start cs = none := by
  unfold Lexeme.ofOpening?
  split
  · exact absurd rfl (h _ rfl).1
  · exact absurd rfl (h _ rfl).2.1
  · exact absurd rfl (h _ rfl).2.2
  · rfl

def wordKind (w : List Char) : Kind :=
  (Keyword.ofWord? w).elim .name .keyword

theorem wordKind_eq_name {w : List Char} : wordKind w = .name ↔ Keyword.ofWord? w = none := by
  unfold wordKind
  cases Keyword.ofWord? w <;> simp

theorem wordKind_eq_keyword {w : List Char} {kw : Keyword} :
    wordKind w = .keyword kw ↔ Keyword.ofWord? w = some kw := by
  unfold wordKind
  cases Keyword.ofWord? w <;> simp

theorem ofLetter_eq_ofWord {w : List Char} (hw : ∀ c ∈ w, isNameChar c = true)
    (hrest : EndsWord rest) : Lexeme.ofLetter c (w ++ rest) = Lexeme.ofWord (c :: (w ++ rest)) := by
  have hhead : ∀ d ∈ (w ++ rest).head?, d ≠ '\x27' ∧ d ≠ '\x22' ∧ d ≠ '<' := by
    intro d hd
    cases w with
    | nil =>
        have hmem := hrest d hd
        revert hmem
        simp only [List.mem_cons, List.not_mem_nil, or_false]
        rintro (rfl | rfl | rfl | rfl) <;> decide
    | cons e w =>
        obtain rfl : e = d := by simpa using hd
        have he := hw e (by simp)
        refine ⟨?_, ?_, ?_⟩ <;> rintro rfl <;> exact absurd he (by decide)
  unfold Lexeme.ofLetter
  rw [ofOpening?_eq_none hhead]
  split <;> rfl

theorem ofWord_eq {w : List Char} (hw : IsIdentifier w) (hrest : EndsWord rest)
    (hkind : Keyword.ofWord? w ≠ some .haltCompiler)
    (hset : Keyword.ofWord? w = none ∨ rest.head? ≠ some '(') :
    Lexeme.ofWord (w ++ rest) = Lexeme.plain (wordKind w) w.length := by
  have hstop : ∀ c ∈ rest.head?, isNameChar c = false := by
    intro c hc
    have hmem := hrest c hc
    revert hmem
    simp only [List.mem_cons, List.not_mem_nil, or_false]
    rintro (rfl | rfl | rfl | rfl) <;> decide
  obtain ⟨htake, hdrop⟩ := takeWhile_append_of_stop (fun c hc => hw.isNameChar hc) hstop
  have hpart : Lexeme.startsPart rest = false := by
    unfold Lexeme.startsPart
    split
    · exact absurd (hrest _ rfl) (by decide)
    · rfl
  unfold Lexeme.ofWord wordKind
  rw [htake, hdrop]
  dsimp only
  rw [hpart, if_neg Bool.false_ne_true]
  cases hk : Keyword.ofWord? w with
  | none => rfl
  | some k =>
      have hwriting : Lexeme.startsSet rest = false := by
        unfold Lexeme.startsSet
        split
        · rw [hk] at hset
          exact absurd rfl (hset.resolve_left (by simp))
        · rfl
      rw [hwriting]
      cases k with
      | haltCompiler => exact absurd hk hkind
      | _ => rfl

theorem ofCode_of_isNameStart (hc : isNameStart c = true) :
    Lexeme.ofCode c cs = Lexeme.ofLetter c cs := by
  have hspace : isSpace c = false := isSpace_of_isNameChar (isNameChar_of_isNameStart hc)
  unfold Lexeme.ofCode
  rw [if_neg (by simp [hspace]), if_pos hc]

theorem scans_word {word : String} {d : Char} (hword : IsIdentifier word.toList)
    (hk : wordKind word.toList = k) (hhalt : k ≠ .keyword .haltCompiler)
    (hd : d ∈ [' ', '\n', '|', '(']) (hparen : k = .name ∨ d ≠ '(') (h : Scans (d :: cs) ws) :
    Scans (word.toList ++ d :: cs) ((k, word) :: ws) := by
  subst hk
  have hends : EndsWord (d :: cs) := by
    intro c hc
    cases hc
    exact hd
  have hne : Keyword.ofWord? word.toList ≠ some .haltCompiler :=
    fun hk => hhalt (wordKind_eq_keyword.2 hk)
  have hset : Keyword.ofWord? word.toList = none ∨ (d :: cs).head? ≠ some '(' :=
    hparen.imp wordKind_eq_name.1 fun hne hhead => hne (Option.some.inj hhead)
  have hlexeme := ofWord_eq hword hends hne hset
  obtain ⟨c, more, hmore, hc⟩ := hword.exists_cons
  have htext : word = String.ofList (c :: more) := by rw [← hmore, String.ofList_toList]
  rw [hmore] at hword hlexeme
  rw [htext, String.toList_ofList]
  refine scans_take more ?_ h
  rw [ofCode_of_isNameStart hc,
    ofLetter_eq_ofWord (fun e he => hword.isNameChar (List.mem_cons_of_mem c he)) hends]
  exact hlexeme

theorem scans_variable {w : List Char} (hw : IsIdentifier w)
    (hrest : ∀ c ∈ rest.head?, isNameChar c = false) (h : Scans rest ws) :
    Scans ('$' :: (w ++ rest)) ((.variable, String.ofList ('$' :: w)) :: ws) := by
  refine scans_take w ?_ h
  have hsize : runSize isNameChar (w ++ rest) = w.length := by
    unfold runSize
    rw [(takeWhile_append_of_stop (fun d hd => hw.isNameChar hd) hrest).1]
  obtain ⟨c, cs, rfl, hc⟩ := hw.exists_cons
  change (if isNameStart c then Lexeme.plain .variable (1 + runSize isNameChar (c :: cs ++ rest))
    else Lexeme.ofMark _) = _
  rw [if_pos hc, hsize, Nat.add_comm]

theorem scans_mark (hlexeme : Lexeme.ofCode c cs = Lexeme.plain k 1) (h : Scans cs ws) :
    Scans (c :: cs) ((k, String.ofList [c]) :: ws) :=
  scans_take [] hlexeme h

theorem ofCode_semicolon : Lexeme.ofCode ';' cs = Lexeme.plain (.mark .semicolon) 1 := rfl

theorem ofCode_comma : Lexeme.ofCode ',' cs = Lexeme.plain (.mark .comma) 1 := rfl

theorem ofCode_openBrace : Lexeme.ofCode '\x7b' cs = Lexeme.plain (.mark .openBrace) 1 := rfl

theorem ofCode_closeBrace : Lexeme.ofCode '\x7d' cs = Lexeme.plain (.mark .closeBrace) 1 := rfl

theorem ofCode_openBracket : Lexeme.ofCode '[' cs = Lexeme.plain (.mark .openBracket) 1 := rfl

theorem ofCode_closeBracket : Lexeme.ofCode ']' cs = Lexeme.plain (.mark .closeBracket) 1 := rfl

theorem ofCode_closeParen : Lexeme.ofCode ')' cs = Lexeme.plain (.mark .closeParen) 1 := rfl

theorem ofCode_arrow : Lexeme.ofCode '-' ('>' :: cs) = Lexeme.plain (.mark .arrow) 2 := rfl

theorem ofCode_assign : Lexeme.ofCode '=' (' ' :: cs) = Lexeme.plain (.mark .assign) 1 := rfl

theorem beq_of_isNameStart {d : Char} (hc : isNameStart c = true) (hd : isNameStart d = false) :
    (d == c) = false := by
  rw [beq_eq_false_iff_ne]
  rintro rfl
  rw [hc] at hd
  exact absurd hd (by decide)

theorem ofCode_pipe (hc : isNameStart c = true) :
    Lexeme.ofCode '|' (c :: cs) = Lexeme.plain (.mark .pipe) 1 := by
  have heq : ('=' == c) = false := beq_of_isNameStart hc (by decide)
  have hpipe : ('|' == c) = false := beq_of_isNameStart hc (by decide)
  have hgt : ('>' == c) = false := beq_of_isNameStart hc (by decide)
  change Lexeme.ofMark ('|' :: c :: cs) = _
  simp [Lexeme.ofMark, Mark.table, List.isPrefixOf, heq, hpipe, hgt]

theorem ofCode_question (hc : isNameStart c = true) :
    Lexeme.ofCode '?' (c :: cs) = Lexeme.plain (.mark .question) 1 := by
  have hquestion : ('?' == c) = false := beq_of_isNameStart hc (by decide)
  have hminus : ('-' == c) = false := beq_of_isNameStart hc (by decide)
  have hgt : c ≠ '>' := (beq_eq_false_iff_ne.1 (beq_of_isNameStart hc (by decide))).symm
  have hmark : Lexeme.ofCode '?' (c :: cs) = Lexeme.ofMark ('?' :: c :: cs) := by
    unfold Lexeme.ofCode
    rw [if_neg (by decide), if_neg (by decide), if_neg (by decide)]
    split <;> simp_all [Lexeme.ofOpening?]
  rw [hmark]
  simp [Lexeme.ofMark, Mark.table, List.isPrefixOf, hquestion, hminus]

theorem drop_length_takeWhile (p : Char → Bool) (cs : List Char) :
    cs.drop (cs.takeWhile p).length = cs.dropWhile p := by
  have hsplit : cs = cs.takeWhile p ++ cs.dropWhile p := List.takeWhile_append_dropWhile.symm
  generalize cs.takeWhile p = taken at hsplit ⊢
  generalize cs.dropWhile p = left at hsplit ⊢
  rw [hsplit, List.drop_left]

theorem dropWhile_ne_cons {p : Char → Bool} {a : List Char} {d e : Char} (ha : e ∉ a) (hd : d ≠ e)
    (hstop : p d = false) (b tail : List Char) : (a ++ d :: b).dropWhile p ≠ e :: tail := by
  induction a with
  | nil => simp [hstop, hd]
  | cons c a ih =>
      rw [List.cons_append, List.dropWhile_cons]
      split
      · exact ih fun h => ha (List.mem_cons_of_mem c h)
      · intro heq
        exact ha (by simp [(List.cons.inj heq).1])

/-- A parenthesis opens no cast if something else than a word stands before the next one closes. -/
theorem castSize?_eq_none {a b : List Char} {d : Char} (ha : ')' ∉ a) (hd : d ≠ ')')
    (hstop : (isSpace d || d.isAlpha) = false) : castSize? (a ++ d :: b) = none := by
  unfold castSize?
  dsimp only
  rw [drop_length_takeWhile]
  split
  · next tail heq => exact absurd heq (dropWhile_ne_cons ha hd hstop b tail)
  · rfl

theorem ofCode_openParen (h : castSize? cs = none) :
    Lexeme.ofCode '(' cs = Lexeme.plain (.mark .openParen) 1 := by
  have hmark : Lexeme.ofMark ('(' :: cs) = Lexeme.plain (.mark .openParen) 1 := rfl
  unfold Lexeme.ofCode
  rw [if_neg (by decide), if_neg (by decide), if_neg (by decide)]
  split <;> simp_all

/-! Comments -/

theorem blockCommentSize?_eq {body : List Char} (hbody : '/' ∉ body) (n : Nat) :
    blockCommentSize? n (body ++ '*' :: '/' :: rest) = some (n + body.length + 2) := by
  induction body generalizing n with
  | nil => rfl
  | cons c body ih =>
      have hnext : ∀ tail, body ++ '*' :: '/' :: rest ≠ '/' :: tail := by
        intro tail heq
        cases body with
        | nil => simp at heq
        | cons d body => exact hbody (by simp [(List.cons.inj heq).1])
      rw [List.cons_append, blockCommentSize?, ih fun h => hbody (List.mem_cons_of_mem c h)]
      · rw [List.length_cons]
        congr 1
        omega
      · rintro tail - heq
        exact hnext tail heq

theorem ofCode_comment {n : Nat} (h : blockCommentSize? 2 ('*' :: cs) = some n) :
    Lexeme.ofCode '/' ('*' :: '*' :: cs) = Lexeme.skipped n := by
  unfold Lexeme.ofCode
  rw [if_neg (by decide), if_neg (by decide), if_neg (by decide)]
  split
  case h_5 heq =>
      cases heq
      rw [h]
  all_goals simp_all

theorem scans_comment {body : List Char} (hbody : '/' ∉ body) (h : Scans rest ws) :
    Scans ('/' :: '*' :: '*' :: (body ++ '*' :: '/' :: rest)) ws := by
  have hstar : '/' ∉ '*' :: body := by simp [hbody]
  have hsize : blockCommentSize? 2 ('*' :: (body ++ '*' :: '/' :: rest)) =
      some (2 + ('*' :: body).length + 2) :=
    blockCommentSize?_eq hstar 2
  have hscans := scans_skip (c := '/') ('*' :: '*' :: (body ++ ['*', '/'])) ?_ h
  · simpa using hscans
  · have hassoc : '*' :: '*' :: (body ++ ['*', '/']) ++ rest =
        '*' :: '*' :: (body ++ '*' :: '/' :: rest) := by
      simp
    have hlength : ('*' :: '*' :: (body ++ ['*', '/'])).length + 1 = 2 + ('*' :: body).length + 2 := by
      simp only [List.length_cons, List.length_append, List.length_nil]
      omega
    rw [hassoc, hlength]
    exact ofCode_comment hsize

end

/-! The start of a source -/

theorem items_of_tag {source : String} {rest : List Char}
    (h : source.toList = '<' :: '?' :: 'p' :: 'h' :: 'p' :: rest) :
    items source = .token ⟨.openTag, "<?php", 0, 5⟩ :: codeItems 5 rest := by
  have hnext : Lexeme.next .text '<' ('?' :: 'p' :: 'h' :: 'p' :: rest) =
      ⟨.token .openTag, .code, 5, none⟩ := rfl
  have hsize : byteSize ['<', '?', 'p', 'h', 'p'] = 5 := by decide
  unfold items
  rw [h]
  change Scan.start.items 0 _ = _
  rw [Scan.items]
  simp [Scan.start, Scan.enter, hnext, Scan.after, Scan.after.settle, Scan.after.proceed, Scan.give,
    hsize, codeItems]

theorem kind_mem_words {source : String} {rest : List Char} {ws : List Word} {t : Token}
    (hsource : source.toList = '<' :: '?' :: 'p' :: 'h' :: 'p' :: rest) (h : Scans rest ws)
    (ht : .token t ∈ items source) : t.kind ∈ Kind.openTag :: ws.map Prod.fst := by
  obtain ⟨ts, hts, rfl, -⟩ := h 5
  rw [items_of_tag hsource, hts] at ht
  rcases List.mem_cons.mp ht with heq | ht
  · rw [Item.token.inj heq]
    exact List.mem_cons_self
  · obtain ⟨u, hu, heq⟩ := List.mem_map.mp ht
    rw [← Item.token.inj heq]
    exact List.mem_cons_of_mem _ (List.mem_map_of_mem (List.mem_map_of_mem hu))

/-! The words in front of a place -/

inductive Reads : List Char → List Word → List Char → Prop
  | done (rest : List Char) : Reads rest [] rest
  | skip {c : Char} {more cs rest : List Char} {ws : List Word}
      (lexeme : Lexeme.ofCode c (more ++ cs) = Lexeme.skipped (more.length + 1))
      (next : Reads cs ws rest) : Reads (c :: (more ++ cs)) ws rest
  | take {c : Char} {more cs rest : List Char} {ws : List Word} {k : Kind}
      (lexeme : Lexeme.ofCode c (more ++ cs) = Lexeme.plain k (more.length + 1))
      (next : Reads cs ws rest) :
      Reads (c :: (more ++ cs)) ((k, String.ofList (c :: more)) :: ws) rest

theorem Reads.scans {cs rest : List Char} {ws ws' : List Word} (h : Reads cs ws rest)
    (hrest : Scans rest ws') : Scans cs (ws ++ ws') := by
  induction h with
  | done _ => exact hrest
  | skip hlexeme _ ih => exact scans_skip _ hlexeme (ih hrest)
  | take hlexeme _ ih => exact scans_take _ hlexeme (ih hrest)

end Scaffold.Php
