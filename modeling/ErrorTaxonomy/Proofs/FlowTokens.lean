import ErrorTaxonomy.Proofs.FlowText

/-!
# The tokens of flow style

A scan of flow style is always between two signs on one line, with as many possible keys as
collections are open and none of them required.  What is done between tokens, giving up stale
keys and passing blanks, keeps this and does not move.  Each sign then has its step, and a key
two: the colon behind it puts the key token in front of the scalar, since the possible key
begun there is still the last one.  Whole values follow from the steps by induction.
-/

namespace ErrorTaxonomy.Yaml

open Json (Piece SpellsCharacters)

def keyTokens (key : String) : List TokenKind :=
  [.key, .scalar .doubleQuoted key, .value]

mutual

/-- The tokens of a value in flow style. -/
def tokensOf : Json → List TokenKind
  | .string content => [.scalar .doubleQuoted content]
  | .array [] => [.flowSequenceStart, .flowSequenceEnd]
  | .array (first :: more) => .flowSequenceStart :: (tokensOf first ++ tokensOfItems more)
  | .object [] => [.flowMappingStart, .flowMappingEnd]
  | .object ((key, first) :: more) =>
      .flowMappingStart :: (keyTokens key ++ tokensOf first ++ tokensOfMembers more)
  | _ => []

def tokensOfItems : List Json → List TokenKind
  | [] => [.flowSequenceEnd]
  | item :: more => .flowEntry :: (tokensOf item ++ tokensOfItems more)

def tokensOfMembers : List (String × Json) → List TokenKind
  | [] => [.flowMappingEnd]
  | (key, value) :: more =>
      .flowEntry :: (keyTokens key ++ tokensOf value ++ tokensOfMembers more)

end

/-! ## The state of a scan -/

/-- A scan on one line between two signs, with collections open to a depth. -/
structure Scanner.IsAt (scanner : Scanner) (depth : Nat) (kinds : List TokenKind)
    (text : List Char) : Prop where
  rest_eq : scanner.cursor.rest = text
  indent_eq : scanner.indent = -1
  outer_eq : scanner.outer = []
  depth_eq : scanner.keys.length = depth + 1
  optional : ∀ key, some key ∈ scanner.keys → key.isRequired = false
  kinds_eq : scanner.tokens.reverse.map Token.kind = kinds
  count_eq : scanner.count = scanner.tokens.length
  unfinished : scanner.isDone = false

def IsSign (c : Char) : Prop :=
  c ∈ ['[', ']', '{', '}', ',', ':', '"']

instance (c : Char) : Decidable (IsSign c) :=
  inferInstanceAs (Decidable (c ∈ _))

theorem inert_of_isSign : ∀ c, IsSign c → isBlank c = false ∧ isBreak c = false ∧ c ≠ '#' ∧
    c ≠ '%' ∧ c ≠ '-' ∧ c ≠ '.' ∧ c ≠ byteOrderMark := by
  simp only [IsSign, List.mem_cons, List.not_mem_nil, or_false]
  rintro c (rfl | rfl | rfl | rfl | rfl | rfl | rfl) <;> decide

section Cursors

variable {cursor : Cursor}

theorem sees_eq_false {d : Char} (hhead : ∀ c ∈ cursor.rest.head?, c ≠ d) :
    cursor.sees d = false := by
  unfold Cursor.sees
  split
  · next c rest hrest => simpa using hhead c (by rw [hrest]; rfl)
  · rfl

theorem skipWhile_eq_self {kind : Char → Bool} (hhead : ∀ c ∈ cursor.rest.head?, kind c = false) :
    cursor.skipWhile kind = cursor := by
  have hnone : cursor.rest.takeWhile kind = [] ∧ cursor.rest.dropWhile kind = cursor.rest := by
    cases hrest : cursor.rest with
    | nil => exact ⟨rfl, rfl⟩
    | cons c rest =>
        have hc : ¬ kind c = true := by
          simp [hhead c (by rw [hrest]; rfl)]
        exact ⟨List.takeWhile_cons_of_neg hc, List.dropWhile_cons_of_neg hc⟩
  rw [Cursor.skipWhile, Cursor.span, hnone.1, hnone.2]
  rfl

theorem pastBreak?_eq_none (hhead : ∀ c ∈ cursor.rest.head?, isBreak c = false) :
    cursor.pastBreak? = none := by
  cases hrest : cursor.rest with
  | nil => rw [Cursor.pastBreak?, hrest]
  | cons c rest => exact pastBreak?_of_not_isBreak hrest (hhead c (by rw [hrest]; rfl))

theorem pastByteOrder_eq_self (hhead : ∀ c ∈ cursor.rest.head?, c ≠ byteOrderMark) :
    cursor.pastByteOrder = cursor := by
  simp [Cursor.pastByteOrder, sees_eq_false hhead]

theorem seesTriple_eq_false {c d : Char} {rest : List Char} (hrest : cursor.rest = c :: rest)
    (hne : c ≠ d) : cursor.seesTriple d = false := by
  rw [Cursor.seesTriple, hrest, Bool.and_eq_false_iff]
  right
  split
  · next heq =>
      have hc := (List.cons.inj heq).1
      subst hc
      simp [hne]
  · rfl

end Cursors

namespace Scanner

variable {scanner ready : Scanner} {depth : Nat} {kinds : List TokenKind} {text rest : List Char}

/-- The scan without the possible keys that are stale. -/
def fresh (scanner : Scanner) : Scanner :=
  { scanner with keys := scanner.keys.map fun key => key.filter fun k => !k.isStale scanner.mark }

/-- What is made ready for the next token differs in the stale keys at most. -/
structure Readies (scanner ready : Scanner) : Prop where
  isAt : ∀ {depth kinds text}, scanner.IsAt depth kinds text → ready.IsAt depth kinds text
  cursor_eq : ready.cursor = scanner.cursor
  mayStartKey_eq : ready.mayStartKey = scanner.mayStartKey
  currentKey_eq : ∀ key, scanner.currentKey = some key → key.isStale scanner.mark = false →
    ready.currentKey = some key

namespace Readies

theorem refl (scanner : Scanner) : scanner.Readies scanner where
  isAt := id
  cursor_eq := rfl
  mayStartKey_eq := rfl
  currentKey_eq := fun _ hkey _ => hkey

theorem trans {middle : Scanner} (hfirst : scanner.Readies middle)
    (hsecond : middle.Readies ready) : scanner.Readies ready where
  isAt := fun hat => hsecond.isAt (hfirst.isAt hat)
  cursor_eq := hsecond.cursor_eq.trans hfirst.cursor_eq
  mayStartKey_eq := hsecond.mayStartKey_eq.trans hfirst.mayStartKey_eq
  currentKey_eq := by
    intro key hkey hstale
    have hmark : middle.mark = scanner.mark := congrArg Cursor.mark hfirst.cursor_eq
    exact hsecond.currentKey_eq key (hfirst.currentKey_eq key hkey hstale) (by rwa [hmark])

theorem fresh (scanner : Scanner) (settled : Nat) :
    scanner.Readies { scanner.fresh with settled } where
  isAt := by
    intro depth kinds text hat
    refine { hat with depth_eq := ?_, optional := ?_ }
    · simp only [Scanner.fresh, List.length_map]
      exact hat.depth_eq
    · intro key hkey
      simp only [Scanner.fresh, List.mem_map, Option.filter_eq_some_iff] at hkey
      rcases hkey with ⟨_, hmem, hsome, _⟩
      exact hat.optional key (hsome ▸ hmem)
  cursor_eq := rfl
  mayStartKey_eq := rfl
  currentKey_eq := by
    intro key hkey hstale
    rw [Scanner.currentKey, Option.join_eq_some_iff] at hkey
    rw [Scanner.currentKey, Option.join_eq_some_iff, Scanner.fresh, List.head?_map, hkey]
    simp [Option.filter, hstale]

end Readies

theorem dropStaleKeys_eq (hoptional : ∀ key, some key ∈ scanner.keys → key.isRequired = false) :
    scanner.dropStaleKeys = .ok scanner.fresh := by
  have hnone : (scanner.keys.reverse.filterMap id).find?
      (fun key => key.isStale scanner.mark && key.isRequired) = none := by
    rw [List.find?_eq_none]
    intro key hkey
    have hmem : some key ∈ scanner.keys := by
      simpa using hkey
    simp [hoptional key hmem]
  simp only [dropStaleKeys, hnone]
  rfl

theorem exists_settle (hat : scanner.IsAt depth kinds text) :
    ∃ settled, scanner.settle = .ok settled ∧ scanner.Readies settled := by
  unfold settle
  split
  · rw [dropStaleKeys_eq hat.optional]
    exact ⟨_, rfl, .fresh scanner _⟩
  · exact ⟨scanner, rfl, .refl scanner⟩

theorem unroll_eq_self (hat : scanner.IsAt depth kinds text) (column : Int) :
    scanner.unroll column = scanner := by
  have hindent := hat.indent_eq
  have houter := hat.outer_eq
  cases scanner with
  | mk cursor indent outer keys mayStartKey tokens count settled isDone =>
      subst hindent houter
      simp [unroll, endedBy]

theorem toNextToken_eq_self (hat : scanner.IsAt depth kinds text)
    (hhead : ∀ c ∈ text.head?, IsSign c) (fuel : Nat) :
    toNextToken (fuel + 1) scanner = scanner := by
  rw [← hat.rest_eq] at hhead
  have hinert := fun c hc => inert_of_isSign c (hhead c hc)
  have horder := pastByteOrder_eq_self fun c hc => (hinert c hc).2.2.2.2.2.2
  have hskip : ∀ takesTabs : Bool,
      scanner.cursor.skipWhile (fun c => c = ' ' || (takesTabs && c = '\t')) = scanner.cursor := by
    intro takesTabs
    apply skipWhile_eq_self
    intro c hc
    have hblank := (hinert c hc).1
    simp only [isBlank, Bool.or_eq_false_iff] at hblank
    simp [hblank.1, hblank.2]
  have hcomment := sees_eq_false fun c hc => (hinert c hc).2.2.1
  have hbreak := pastBreak?_eq_none fun c hc => (hinert c hc).2.1
  simp only [toNextToken, horder, hskip, hcomment, Bool.false_eq_true, if_false, hbreak]

/-- What happens between two tokens leaves the scan where it is. -/
theorem exists_ready (hat : scanner.IsAt depth kinds text) (hhead : ∀ c ∈ text.head?, IsSign c) :
    ∃ settled ready, scanner.settle = .ok settled ∧ scanner.Readies ready ∧ ∀ fuel,
      settled.fetch fuel = match text with
        | [] => ready.fetchEnd
        | c :: rest => ready.fetchAt fuel c rest := by
  rcases exists_settle hat with ⟨settled, hsettle, hready⟩
  have hsettled := hready.isAt hat
  have hfresh : settled.Readies settled.fresh := .fresh settled settled.settled
  refine ⟨settled, settled.fresh, hsettle, hready.trans hfresh, ?_⟩
  intro fuel
  have hrest := (hfresh.isAt hsettled).rest_eq
  simp only [fetch, toNextToken_eq_self hsettled hhead, dropStaleKeys_eq hsettled.optional,
    ok_bind, unroll_eq_self (hfresh.isAt hsettled), hrest]
  cases text <;> rfl

/-! ## Runs -/

/-- A run goes on from another state, with fuel for what is left there. -/
def RunsTo (scanner next : Scanner) : Prop :=
  ∀ fuel, scanner.cursor.rest.length < fuel →
    ∃ fuel', next.cursor.rest.length < fuel' ∧ scanner.run fuel = next.run fuel'

theorem RunsTo.trans {middle next : Scanner} (hfirst : scanner.RunsTo middle)
    (hsecond : middle.RunsTo next) : scanner.RunsTo next := by
  intro fuel hfuel
  rcases hfirst fuel hfuel with ⟨between, hbetween, hrun⟩
  rcases hsecond between hbetween with ⟨left, hleft, hrun'⟩
  exact ⟨left, hleft, hrun.trans hrun'⟩

theorem exists_runsTo {c : Char} (hat : scanner.IsAt depth kinds (c :: rest)) (hsign : IsSign c) :
    ∃ ready, scanner.Readies ready ∧ ∀ {next depth' kinds' rest'},
      next.IsAt depth' kinds' rest' → rest'.length ≤ rest.length →
        (∀ fuel, rest.length < fuel → ready.fetchAt fuel c rest = .ok next) →
          scanner.RunsTo next := by
  rcases exists_ready hat (by simpa using hsign) with ⟨settled, ready, hsettle, hready, hfetch⟩
  refine ⟨ready, hready, ?_⟩
  intro next depth' kinds' rest' hnext hshorter hfetchAt fuel hfuel
  rw [hat.rest_eq, List.length_cons] at hfuel
  cases fuel with
  | zero => exact absurd hfuel (Nat.not_lt_zero _)
  | succ fuel =>
      have henough := Nat.lt_of_succ_lt_succ hfuel
      refine ⟨fuel, ?_, ?_⟩
      · rw [hnext.rest_eq]
        exact Nat.lt_of_le_of_lt hshorter henough
      · simp [run, hsettle, hfetch, hfetchAt fuel henough, hnext.unfinished]

/-! ## Signs -/

/-- What is fetched at a sign: of the other tokens none begins with one. -/
def fetchSign (scanner : Scanner) (fuel : Nat) (c : Char) : Except Problem Scanner :=
  if c = '[' then scanner.fetchFlowStart .flowSequenceStart
  else if c = '{' then scanner.fetchFlowStart .flowMappingStart
  else if c = ']' then scanner.fetchFlowEnd .flowSequenceEnd
  else if c = '}' then scanner.fetchFlowEnd .flowMappingEnd
  else if c = ',' then scanner.fetchFlowEntry
  else if c = ':' then scanner.fetchValue
  else scanner.fetchQuoted .doubleQuoted '"' fuel

theorem fetchAt_of_isSign {c : Char} (hrest : scanner.cursor.rest = c :: rest) (hsign : IsSign c)
    (hflow : c = ':' → scanner.inFlow = true) (fuel : Nat) :
    scanner.fetchAt fuel c rest = scanner.fetchSign fuel c := by
  have hinert := inert_of_isSign c hsign
  have hdash := seesTriple_eq_false hrest hinert.2.2.2.2.1
  have hdot := seesTriple_eq_false hrest hinert.2.2.2.2.2.1
  simp only [IsSign, List.mem_cons, List.not_mem_nil, or_false] at hsign
  rcases hsign with rfl | rfl | rfl | rfl | rfl | rfl | rfl
  all_goals simp [fetchAt, fetchSign, hdash, hdot, hflow]

namespace IsAt

theorem length_eq (hat : scanner.IsAt depth kinds text) : scanner.count = kinds.length := by
  rw [hat.count_eq, ← hat.kinds_eq, List.length_map, List.length_reverse]

theorem inFlow_eq (hat : scanner.IsAt (depth + 1) kinds text) : scanner.inFlow = true := by
  simp [inFlow, hat.depth_eq]

theorem setKey (hat : scanner.IsAt depth kinds text) {key : Option PossibleKey}
    (hkey : ∀ k, key = some k → k.isRequired = false) :
    (scanner.setKey key).IsAt depth kinds text := by
  refine { hat with depth_eq := ?_, optional := ?_ }
  · have hdepth := hat.depth_eq
    simp only [Scanner.setKey, List.length_cons, List.length_drop]
    omega
  · intro k hk
    rcases List.mem_cons.mp hk with heq | hmem
    · exact hkey k heq.symm
    · exact hat.optional k (List.mem_of_mem_drop hmem)

theorem addIndicator {c : Char} (hat : scanner.IsAt depth kinds (c :: rest))
    (kind : TokenKind) : (scanner.addIndicator kind 1).IsAt depth (kinds ++ [kind]) rest := by
  refine { hat with rest_eq := ?_, kinds_eq := ?_, count_eq := ?_ }
  · simp [Scanner.addIndicator, Cursor.forward, hat.rest_eq]
  · simp [Scanner.addIndicator, Scanner.add, ← hat.kinds_eq]
  · simp [Scanner.addIndicator, Scanner.add, hat.count_eq]

theorem dropKey_eq (hat : scanner.IsAt depth kinds text) :
    scanner.dropKey = .ok (scanner.setKey none) := by
  unfold Scanner.dropKey
  split
  · next key hkey =>
      rw [Scanner.currentKey, Option.join_eq_some_iff] at hkey
      have hoptional := hat.optional key (List.mem_of_head? hkey)
      simp [hoptional]
  · rfl

theorem setNone (hat : scanner.IsAt depth kinds text) :
    (scanner.setKey none).IsAt depth kinds text :=
  hat.setKey (by simp)

/-- A possible key is saved where one may start, and never a required one. -/
theorem exists_saveKey (hat : scanner.IsAt depth kinds text) :
    ∃ saved, scanner.saveKey = .ok saved ∧ saved.IsAt depth kinds text ∧
      saved.cursor = scanner.cursor ∧
      (scanner.mayStartKey = true → ∃ key, saved.currentKey = some key ∧
        key.number = kinds.length ∧ key.mark = scanner.mark) := by
  unfold saveKey
  split
  · have hindent : (scanner.setKey none).indent = -1 := hat.indent_eq
    have hrequired : ((scanner.setKey none).indent == ((scanner.setKey none).mark.column : Int))
        = false := by
      rw [hindent, beq_eq_false_iff_ne]
      omega
    have hcount : (scanner.setKey none).count = kinds.length := hat.length_eq
    rw [hat.dropKey_eq]
    refine ⟨_, rfl, hat.setNone.setKey ?_, rfl, ?_⟩
    · rintro key ⟨⟩
      rw [hrequired, Bool.and_false]
    · intro _
      exact ⟨_, rfl, hcount, rfl⟩
  · next hmay =>
      refine ⟨scanner, rfl, hat, rfl, ?_⟩
      intro hmay'
      exact absurd hmay' hmay

theorem exists_flowStart {c : Char} {kind : TokenKind} (hsign : IsSign c)
    (hcolon : c ≠ ':')
    (hfetch : ∀ (ready : Scanner) fuel, ready.fetchSign fuel c = ready.fetchFlowStart kind)
    (hat : scanner.IsAt depth kinds (c :: rest)) :
    ∃ next, scanner.RunsTo next ∧ next.IsAt (depth + 1) (kinds ++ [kind]) rest ∧
      next.mayStartKey = true := by
  rcases exists_runsTo hat hsign with ⟨ready, hready, hruns⟩
  have hatReady := hready.isAt hat
  rcases hatReady.exists_saveKey with ⟨saved, hsave, hatSaved, _, _⟩
  have hadded := hatSaved.addIndicator kind
  have hnext : Scanner.IsAt
      { saved.addIndicator kind 1 with keys := none :: saved.keys, mayStartKey := true }
      (depth + 1) (kinds ++ [kind]) rest := by
    refine { hadded with depth_eq := ?_, optional := ?_ }
    · rw [List.length_cons, hatSaved.depth_eq]
    · intro key hkey
      exact hatSaved.optional key (by simpa using hkey)
  refine ⟨_, hruns hnext (Nat.le_refl _) ?_, hnext, rfl⟩
  intro fuel _
  rw [fetchAt_of_isSign hatReady.rest_eq hsign (fun heq => absurd heq hcolon), hfetch,
    fetchFlowStart, hsave]
  rfl

theorem exists_flowEnd {c : Char} {kind : TokenKind} (hsign : IsSign c)
    (hcolon : c ≠ ':')
    (hfetch : ∀ (ready : Scanner) fuel, ready.fetchSign fuel c = ready.fetchFlowEnd kind)
    (hat : scanner.IsAt (depth + 1) kinds (c :: rest)) :
    ∃ next, scanner.RunsTo next ∧ next.IsAt depth (kinds ++ [kind]) rest := by
  rcases exists_runsTo hat hsign with ⟨ready, hready, hruns⟩
  have hatReady := hready.isAt hat
  have hatNone := hatReady.setNone
  have hadded := hatNone.addIndicator kind
  have hnext : Scanner.IsAt
      { (ready.setKey none).addIndicator kind 1 with
        keys := (ready.setKey none).keys.drop 1
        mayStartKey := false } depth (kinds ++ [kind]) rest := by
    refine { hadded with depth_eq := ?_, optional := ?_ }
    · rw [List.length_drop, hatNone.depth_eq]
      rfl
    · intro key hkey
      exact hatNone.optional key (List.mem_of_mem_drop hkey)
  refine ⟨_, hruns hnext (Nat.le_refl _) ?_, hnext⟩
  intro fuel _
  rw [fetchAt_of_isSign hatReady.rest_eq hsign (fun heq => absurd heq hcolon), hfetch,
    fetchFlowEnd, hatReady.dropKey_eq]
  simp only [ok_bind, hatNone.inFlow_eq]
  rfl

theorem exists_flowEntry (hat : scanner.IsAt depth kinds (',' :: rest)) :
    ∃ next, scanner.RunsTo next ∧ next.IsAt depth (kinds ++ [.flowEntry]) rest ∧
      next.mayStartKey = true := by
  rcases exists_runsTo hat (by decide) with ⟨ready, hready, hruns⟩
  have hatReady := hready.isAt hat
  have hadded := hatReady.setNone.addIndicator .flowEntry
  have hnext : Scanner.IsAt
      { (ready.setKey none).addIndicator .flowEntry 1 with mayStartKey := true }
      depth (kinds ++ [.flowEntry]) rest := { hadded with }
  refine ⟨_, hruns hnext (Nat.le_refl _) ?_, hnext, rfl⟩
  intro fuel _
  have hfetch : ready.fetchSign fuel ',' = ready.fetchFlowEntry := rfl
  rw [fetchAt_of_isSign hatReady.rest_eq (by decide) (fun heq => absurd heq (by decide)), hfetch,
    fetchFlowEntry, hatReady.dropKey_eq]
  rfl

theorem exists_quoted (hat : scanner.IsAt depth kinds ('"' :: text)) {content : String}
    (hspells : SpellsCharacters content.toList text rest) (hascii : IsAscii content.toList) :
    ∃ next, scanner.RunsTo next ∧
      next.IsAt depth (kinds ++ [.scalar .doubleQuoted content]) rest ∧
      scanner.cursor.LeadsTo next.cursor ∧
      (scanner.mayStartKey = true → ∃ key, next.currentKey = some key ∧
        key.number = kinds.length ∧ key.mark = scanner.mark) := by
  rcases exists_runsTo hat (by decide) with ⟨ready, hready, hruns⟩
  have hatReady := hready.isAt hat
  rcases hatReady.exists_saveKey with ⟨saved, hsave, hatSaved, hcursor, hkey⟩
  rcases scanQuoted_of_spells hspells hascii hatSaved.rest_eq with ⟨last, hlast, hleads, hscan⟩
  have hnext : Scanner.IsAt
      (saved.addScalar .doubleQuoted
        { content := content.toList, stop := last.mark, next := last } false)
      depth (kinds ++ [.scalar .doubleQuoted content]) rest := by
    refine { hatSaved with rest_eq := hlast, kinds_eq := ?_, count_eq := ?_ }
    · simp [addScalar, Scanner.add, ← hatSaved.kinds_eq]
    · simp [addScalar, Scanner.add, hatSaved.count_eq]
  have hshorter := Nat.le_of_lt hspells.length_lt
  refine ⟨_, hruns hnext hshorter ?_, hnext, ?_, ?_⟩
  · intro fuel hfuel
    have hfetch : ready.fetchSign fuel '"' = ready.fetchQuoted .doubleQuoted '"' fuel := rfl
    rw [fetchAt_of_isSign hatReady.rest_eq (by decide) (fun heq => absurd heq (by decide)), hfetch,
      fetchQuoted, hsave, ok_bind, hscan fuel hfuel]
    rfl
  · rw [hcursor, hready.cursor_eq] at hleads
    exact hleads
  · intro hmay
    rcases hkey (hready.mayStartKey_eq.trans hmay) with ⟨key, hcurrent, hnumber, hmark⟩
    exact ⟨key, hcurrent, hnumber, hmark.trans (congrArg Cursor.mark hready.cursor_eq)⟩

/-- The colon makes a key of the scalar in front of it. -/
theorem exists_colon {last : TokenKind} {key : PossibleKey}
    (hat : scanner.IsAt (depth + 1) (kinds ++ [last]) (':' :: rest))
    (hkey : scanner.currentKey = some key) (hnumber : key.number = kinds.length)
    (hstale : key.isStale scanner.mark = false) :
    ∃ next, scanner.RunsTo next ∧ next.IsAt (depth + 1) (kinds ++ [.key, last, .value]) rest := by
  rcases exists_runsTo hat (by decide) with ⟨ready, hready, hruns⟩
  have hatReady := hready.isAt hat
  have hcurrent := hready.currentKey_eq key hkey hstale
  have hinserted : Scanner.IsAt
      (ready.insertAt key.number { kind := .key, start := key.mark, stop := key.mark })
      (depth + 1) (kinds ++ [.key, last]) (':' :: rest) := by
    have hnewer : ready.count - key.number = 1 := by
      rw [hatReady.length_eq, hnumber, List.length_append, List.length_singleton]
      omega
    have hkinds := hatReady.kinds_eq
    cases htokens : ready.tokens with
    | nil => simp [htokens] at hkinds
    | cons token older =>
        rw [htokens, List.reverse_cons, List.map_append, List.map_singleton] at hkinds
        rcases List.append_inj' hkinds rfl with ⟨holder, htoken⟩
        refine { hatReady with kinds_eq := ?_, count_eq := ?_ }
        · simp [insertAt, hnewer, htokens, holder, List.singleton_inj.mp htoken]
        · have hcount := hatReady.count_eq
          simpa [insertAt, hnewer, htokens] using hcount
  have hadded := hinserted.setNone.addIndicator .value
  have hnext : Scanner.IsAt
      { ((ready.insertAt key.number
          { kind := .key, start := key.mark, stop := key.mark }).setKey none).addIndicator .value 1
        with mayStartKey := false } (depth + 1) (kinds ++ [.key, last, .value]) rest := by
    rw [List.append_assoc] at hadded
    exact { hadded with }
  refine ⟨_, hruns hnext (Nat.le_refl _) ?_, hnext⟩
  intro fuel _
  have hfetch : ready.fetchSign fuel ':' = ready.fetchValue := rfl
  have hroll : ∀ kind mark number, (ready.insertAt key.number
      { kind := .key, start := key.mark, stop := key.mark }).roll kind mark number =
        ready.insertAt key.number { kind := .key, start := key.mark, stop := key.mark } := by
    intro kind mark number
    rw [roll, if_pos hinserted.inFlow_eq]
  rw [fetchAt_of_isSign hatReady.rest_eq (by decide) (fun _ => hatReady.inFlow_eq), hfetch]
  simp only [fetchValue, hcurrent, hroll]
  rfl

/-- A key in quotes is not too long for its colon, whatever of it is escaped. -/
theorem exists_key (hat : scanner.IsAt (depth + 1) kinds ('"' :: text)) {key : String}
    (hmay : scanner.mayStartKey = true)
    (hspells : SpellsCharacters key.toList text (':' :: rest)) (hshort : IsShortKey key) :
    ∃ next, scanner.RunsTo next ∧ next.IsAt (depth + 1) (kinds ++ keyTokens key) rest := by
  rcases hat.exists_quoted hspells hshort.1 with ⟨quoted, hruns, hatQuoted, hleads, hkey⟩
  rcases hkey hmay with ⟨possible, hcurrent, hnumber, hmark⟩
  have hstale : possible.isStale quoted.mark = false := by
    have hlength := hspells.length_le_of_ascii hshort.1
    have hreach := hshort.2
    have hquoted : quoted.mark = scanner.mark.forward _ := hleads.mark_eq
    rw [hat.rest_eq, hatQuoted.rest_eq, ← hmark] at hquoted
    simp only [PossibleKey.isStale, hquoted, Mark.forward, List.length_cons, Nat.lt_irrefl,
      decide_false, Bool.false_or, decide_eq_false_iff_not]
    simp only [List.length_cons] at hlength
    omega
  rcases hatQuoted.exists_colon hcurrent hnumber hstale with ⟨next, hrunsColon, hatNext⟩
  exact ⟨next, hruns.trans hrunsColon, hatNext⟩

theorem exists_sequenceStart (hat : scanner.IsAt depth kinds ('[' :: rest)) :
    ∃ next, scanner.RunsTo next ∧
      next.IsAt (depth + 1) (kinds ++ [.flowSequenceStart]) rest := by
  have hfetch : ∀ (ready : Scanner) fuel,
      ready.fetchSign fuel '[' = ready.fetchFlowStart .flowSequenceStart := fun _ _ => rfl
  rcases exists_flowStart (by decide) (by decide) hfetch hat with ⟨next, hruns, hnext, _⟩
  exact ⟨next, hruns, hnext⟩

theorem exists_mappingStart (hat : scanner.IsAt depth kinds ('{' :: rest)) :
    ∃ next, scanner.RunsTo next ∧
      next.IsAt (depth + 1) (kinds ++ [.flowMappingStart]) rest ∧ next.mayStartKey = true := by
  have hfetch : ∀ (ready : Scanner) fuel,
      ready.fetchSign fuel '{' = ready.fetchFlowStart .flowMappingStart := fun _ _ => rfl
  exact exists_flowStart (by decide) (by decide) hfetch hat

theorem exists_sequenceEnd (hat : scanner.IsAt (depth + 1) kinds (']' :: rest)) :
    ∃ next, scanner.RunsTo next ∧ next.IsAt depth (kinds ++ [.flowSequenceEnd]) rest := by
  have hfetch : ∀ (ready : Scanner) fuel,
      ready.fetchSign fuel ']' = ready.fetchFlowEnd .flowSequenceEnd := fun _ _ => rfl
  exact exists_flowEnd (by decide) (by decide) hfetch hat

theorem exists_mappingEnd (hat : scanner.IsAt (depth + 1) kinds ('}' :: rest)) :
    ∃ next, scanner.RunsTo next ∧ next.IsAt depth (kinds ++ [.flowMappingEnd]) rest := by
  have hfetch : ∀ (ready : Scanner) fuel,
      ready.fetchSign fuel '}' = ready.fetchFlowEnd .flowMappingEnd := fun _ _ => rfl
  exact exists_flowEnd (by decide) (by decide) hfetch hat

end IsAt

/-! ## Values -/

/-- A part of a text is scanned to its tokens, from any state that stands before it. -/
def Scans : Piece → List Char → List Char → Prop
  | .value value, text, rest => ∀ scanner depth kinds, IsAt scanner depth kinds text →
      ∃ next, scanner.RunsTo next ∧ next.IsAt depth (kinds ++ tokensOf value) rest
  | .member key value, text, rest => ∀ scanner depth kinds,
      IsAt scanner (depth + 1) kinds text → scanner.mayStartKey = true →
      ∃ next, scanner.RunsTo next ∧
        next.IsAt (depth + 1) (kinds ++ (keyTokens key ++ tokensOf value)) rest
  | .items items, text, rest => ∀ scanner depth kinds, IsAt scanner (depth + 1) kinds text →
      ∃ next, scanner.RunsTo next ∧ next.IsAt depth (kinds ++ tokensOfItems items) rest
  | .members members, text, rest => ∀ scanner depth kinds,
      IsAt scanner (depth + 1) kinds text →
      ∃ next, scanner.RunsTo next ∧ next.IsAt depth (kinds ++ tokensOfMembers members) rest

theorem scans_of_flows {piece : Piece} (hflows : Flows piece text rest) :
    Scans piece text rest := by
  induction hflows with
  | string hcharacters hascii =>
      intro scanner depth kinds hat
      rcases hat.exists_quoted hcharacters hascii with ⟨next, hruns, hnext, _, _⟩
      exact ⟨next, hruns, by simpa [tokensOf] using hnext⟩
  | emptyArray =>
      intro scanner depth kinds hat
      rcases hat.exists_sequenceStart with ⟨opened, hruns, hopened⟩
      rcases hopened.exists_sequenceEnd with ⟨next, hrunsEnd, hnext⟩
      exact ⟨next, hruns.trans hrunsEnd, by simpa [tokensOf] using hnext⟩
  | array _ _ ihfirst ihmore =>
      intro scanner depth kinds hat
      rcases hat.exists_sequenceStart with ⟨opened, hruns, hopened⟩
      rcases ihfirst opened _ _ hopened with ⟨middle, hrunsFirst, hmiddle⟩
      rcases ihmore middle _ _ hmiddle with ⟨next, hrunsMore, hnext⟩
      exact ⟨next, (hruns.trans hrunsFirst).trans hrunsMore, by simpa [tokensOf] using hnext⟩
  | emptyObject =>
      intro scanner depth kinds hat
      rcases hat.exists_mappingStart with ⟨opened, hruns, hopened, _⟩
      rcases hopened.exists_mappingEnd with ⟨next, hrunsEnd, hnext⟩
      exact ⟨next, hruns.trans hrunsEnd, by simpa [tokensOf] using hnext⟩
  | object _ _ ihfirst ihmore =>
      intro scanner depth kinds hat
      rcases hat.exists_mappingStart with ⟨opened, hruns, hopened, hmay⟩
      rcases ihfirst opened _ _ hopened hmay with ⟨middle, hrunsFirst, hmiddle⟩
      rcases ihmore middle _ _ hmiddle with ⟨next, hrunsMore, hnext⟩
      exact ⟨next, (hruns.trans hrunsFirst).trans hrunsMore, by simpa [tokensOf] using hnext⟩
  | member hkey hshort _ ih =>
      intro scanner depth kinds hat hmay
      rcases hat.exists_key hmay hkey hshort with ⟨keyed, hruns, hkeyed⟩
      rcases ih keyed _ _ hkeyed with ⟨next, hrunsValue, hnext⟩
      exact ⟨next, hruns.trans hrunsValue, by simpa using hnext⟩
  | noItems =>
      intro scanner depth kinds hat
      exact hat.exists_sequenceEnd
  | item _ _ ihitem ihmore =>
      intro scanner depth kinds hat
      rcases hat.exists_flowEntry with ⟨entered, hruns, hentered, _⟩
      rcases ihitem entered _ _ hentered with ⟨middle, hrunsItem, hmiddle⟩
      rcases ihmore middle _ _ hmiddle with ⟨next, hrunsMore, hnext⟩
      exact ⟨next, (hruns.trans hrunsItem).trans hrunsMore, by simpa [tokensOfItems] using hnext⟩
  | noMembers =>
      intro scanner depth kinds hat
      exact hat.exists_mappingEnd
  | moreMembers _ _ ihmember ihmore =>
      intro scanner depth kinds hat
      rcases hat.exists_flowEntry with ⟨entered, hruns, hentered, hmay⟩
      rcases ihmember entered _ _ hentered hmay with ⟨middle, hrunsMember, hmiddle⟩
      rcases ihmore middle _ _ hmiddle with ⟨next, hrunsMore, hnext⟩
      exact ⟨next, (hruns.trans hrunsMember).trans hrunsMore,
        by simpa [tokensOfMembers] using hnext⟩

theorem finish_eq (hoptional : ∀ key, some key ∈ scanner.keys → key.isRequired = false) :
    scanner.finish = { tokens := scanner.tokens.reverse, stop := none } := by
  unfold finish settle
  split_ifs
  · rw [dropStaleKeys_eq hoptional]
    rfl
  · rfl

theorem exists_fetchEnd (hat : scanner.IsAt depth kinds []) :
    ∃ ended, scanner.fetchEnd = .ok ended ∧ ended.isDone = true ∧
      (∀ key, some key ∈ ended.keys → key.isRequired = false) ∧
      ended.tokens.reverse.map Token.kind = kinds ++ [.streamEnd] := by
  have hatMarked : ∀ mark, Scanner.IsAt
      { scanner with cursor := { mark, rest := scanner.cursor.rest } } depth kinds [] :=
    fun _ => { hat with }
  have hdrop := fun mark => (hatMarked mark).dropKey_eq
  have hunroll := fun mark => unroll_eq_self (hatMarked mark) (-1)
  simp only [fetchEnd, hunroll, hdrop, ok_bind]
  refine ⟨_, rfl, rfl, hat.setNone.optional, ?_⟩
  simp [Scanner.add, setKey, ← hat.kinds_eq]

/-- At the end of the text all tokens are handed on. -/
theorem run_at_end (hat : scanner.IsAt depth kinds []) (fuel : Nat) :
    (scanner.run (fuel + 1)).tokens.map Token.kind = kinds ++ [.streamEnd] ∧
      (scanner.run (fuel + 1)).stop = none := by
  rcases exists_ready hat (by simp) with ⟨settled, ready, hsettle, hready, hfetch⟩
  rcases exists_fetchEnd (hready.isAt hat) with ⟨ended, hend, hdone, hoptional, hkinds⟩
  have hrun : scanner.run (fuel + 1) = { tokens := ended.tokens.reverse, stop := none } := by
    simp [run, hsettle, hfetch, hend, hdone, finish_eq hoptional]
  rw [hrun]
  exact ⟨hkinds, rfl⟩

end Scanner

theorem scan_of_flows {value : Json} {text : List Char} (hflows : Flows (.value value) text []) :
    (scan text).tokens.map Token.kind = tokensOf value ++ [.streamEnd] ∧
      (scan text).stop = none := by
  have hallowed := areAllowed_of_flows hflows (List.forall_mem_nil _)
  have horder : withoutByteOrder text = (0, text) := by
    cases hflows <;> rfl
  have hstart : Scanner.IsAt { cursor := { mark := {}, rest := text } } 0 [] text := by
    constructor <;> simp
  rcases Scanner.scans_of_flows hflows _ _ _ hstart with ⟨next, hruns, hnext⟩
  rcases hruns (text.length + 2) (by simp) with ⟨fuel, hfuel, hrun⟩
  have hscan : scan text = next.run fuel := by
    rw [← hrun]
    simp only [scan, horder, firstForbidden?_of_areAllowed hallowed]
  rw [hscan]
  cases fuel with
  | zero => exact absurd hfuel (Nat.not_lt_zero _)
  | succ fuel => exact Scanner.run_at_end hnext fuel

end ErrorTaxonomy.Yaml
