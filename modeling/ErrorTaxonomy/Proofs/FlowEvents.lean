import ErrorTaxonomy.Proofs.FlowTokens
import ErrorTaxonomy.Yaml.Parser

/-!
# The events of flow style

Each step of the parser within a flow collection takes a token at least and gives the event of
a node, or of the end of a collection.  The state of a collection stays on the stack while its
items are parsed, so a value is parsed to its events from wherever a node may stand, and the
stack is afterwards what it was.
-/

namespace ErrorTaxonomy.Yaml

mutual

/-- The events of a value in flow style. -/
def eventsOf : Json → List EventKind
  | .string content => [.scalar none none .doubleQuoted content]
  | .array items => .sequenceStart none :: eventsOfItems items
  | .object members => .mappingStart none :: eventsOfMembers members
  | _ => []

def eventsOfItems : List Json → List EventKind
  | [] => [.sequenceEnd]
  | item :: items => eventsOf item ++ eventsOfItems items

def eventsOfMembers : List (String × Json) → List EventKind
  | [] => [.mappingEnd]
  | (key, value) :: members =>
      .scalar none none .doubleQuoted key :: (eventsOf value ++ eventsOfMembers members)

end

/-- The tokens that begin the nodes of flow style. -/
inductive BeginsNode : TokenKind → Prop
  | scalar {style : ScalarStyle} {content : String} : BeginsNode (.scalar style content)
  | sequence : BeginsNode .flowSequenceStart
  | mapping : BeginsNode .flowMappingStart

theorem exists_tokensOf_eq_cons {value : Json} (htextual : IsTextual value) :
    ∃ kind kinds, tokensOf value = kind :: kinds ∧ BeginsNode kind := by
  match value with
  | .string content => exact ⟨_, _, rfl, .scalar⟩
  | .array [] => exact ⟨_, _, rfl, .sequence⟩
  | .array (first :: more) => exact ⟨_, _, rfl, .sequence⟩
  | .object [] => exact ⟨_, _, rfl, .mapping⟩
  | .object ((key, first) :: more) => exact ⟨_, _, rfl, .mapping⟩

/-- The events within a document. -/
def IsInner : EventKind → Prop
  | .streamEnd => False
  | .documentStart => False
  | .documentEnd => False
  | _ => True

namespace Parser

variable {parser base after : Parser} {stack : List ParserState} {kind : TokenKind}
  {kinds more : List TokenKind} {start : Mark}

structure IsAt (parser : Parser) (stack : List ParserState) (kinds : List TokenKind) : Prop where
  stack_eq : parser.stack = stack
  kinds_eq : parser.tokens.map Token.kind = kinds

theorem IsAt.exists_token (hat : parser.IsAt stack (kind :: kinds)) :
    ∃ token rest, parser.tokens = token :: rest ∧ token.kind = kind ∧
      rest.map Token.kind = kinds := by
  rcases List.map_eq_cons_iff.mp hat.kinds_eq with ⟨token, rest, htokens, hkind, hrest⟩
  exact ⟨token, rest, htokens, hkind, hrest⟩

theorem IsAt.length_eq (hat : parser.IsAt stack kinds) : parser.tokens.length = kinds.length := by
  rw [← hat.kinds_eq, List.length_map]

theorem IsAt.length_le {stack' : List ParserState} {kinds' : List TokenKind}
    (hat : parser.IsAt stack kinds) (hafter : after.IsAt stack' kinds')
    (hle : kinds'.length ≤ kinds.length) : after.tokens.length ≤ parser.tokens.length := by
  rwa [hat.length_eq, hafter.length_eq]

theorem IsAt.skip (hat : parser.IsAt stack (kind :: kinds)) : parser.skip.IsAt stack kinds where
  stack_eq := hat.stack_eq
  kinds_eq := by
    rw [Parser.skip, List.map_drop, hat.kinds_eq]
    rfl

theorem IsAt.push (hat : parser.IsAt stack kinds) (state : ParserState) :
    (parser.push state).IsAt (state :: stack) kinds where
  stack_eq := congrArg (state :: ·) hat.stack_eq
  kinds_eq := hat.kinds_eq

theorem IsAt.become {current : ParserState} (hat : parser.IsAt (current :: stack) kinds)
    (state : ParserState) : (parser.become state).IsAt (state :: stack) kinds where
  stack_eq := by rw [Parser.become, hat.stack_eq, List.drop_one, List.tail_cons]
  kinds_eq := hat.kinds_eq

theorem IsAt.pop {current : ParserState} (hat : parser.IsAt (current :: stack) kinds) :
    parser.pop.IsAt stack kinds where
  stack_eq := by rw [Parser.pop, hat.stack_eq, List.drop_one, List.tail_cons]
  kinds_eq := hat.kinds_eq

/-! ## Steps put together -/

/-- The steps from one state to another give events of these kinds, with fuel left for the
tokens that are left. -/
def Emits (parser : Parser) (kinds : List EventKind) (after : Parser) : Prop :=
  ∃ events, events.map Event.kind = kinds ∧ ∀ fuel, parser.tokens.length < fuel →
    ∃ fuel', after.tokens.length < fuel' ∧ parser.firstDocument fuel =
      (events ++ (after.firstDocument fuel').1, (after.firstDocument fuel').2)

theorem Emits.trans {middle : Parser} {first second : List EventKind}
    (hfirst : parser.Emits first middle) (hsecond : middle.Emits second after) :
    parser.Emits (first ++ second) after := by
  rcases hfirst with ⟨events, hevents, hrun⟩
  rcases hsecond with ⟨events', hevents', hrun'⟩
  refine ⟨events ++ events', ?_, ?_⟩
  · rw [List.map_append, hevents, hevents']
  · intro fuel hfuel
    rcases hrun fuel hfuel with ⟨between, hbetween, hdocument⟩
    rcases hrun' between hbetween with ⟨left, hleft, hdocument'⟩
    refine ⟨left, hleft, ?_⟩
    rw [hdocument, hdocument', List.append_assoc]

theorem emits_of_step {event : Event} (hstep : parser.step = .ok (event, after))
    (hinner : IsInner event.kind) (hshorter : after.tokens.length < parser.tokens.length) :
    parser.Emits [event.kind] after := by
  refine ⟨[event], rfl, ?_⟩
  intro fuel hfuel
  cases fuel with
  | zero => exact absurd hfuel (Nat.not_lt_zero _)
  | succ fuel =>
      refine ⟨fuel, by omega, ?_⟩
      rcases event with ⟨kind, mark⟩
      cases kind with
      | streamEnd => exact absurd hinner id
      | documentStart => exact absurd hinner id
      | documentEnd => exact absurd hinner id
      | _ =>
          simp only [firstDocument, hstep]
          rfl

/-- A step that takes a token emits its event, whatever it has passed over before. -/
theorem emits_of_taken {event : Event} {stack' : List ParserState}
    (hat : base.IsAt stack (kind :: kinds)) (hle : base.tokens.length ≤ parser.tokens.length)
    (hstep : parser.step = .ok (event, after)) (hinner : IsInner event.kind)
    (hafter : after.IsAt stack' kinds) : parser.Emits [event.kind] after := by
  have hshorter : after.tokens.length < base.tokens.length := by
    rw [hafter.length_eq, hat.length_eq]
    exact Nat.lt_succ_self _
  exact emits_of_step hstep hinner (Nat.lt_of_lt_of_le hshorter hle)

/-! ## Nodes -/

theorem parseNode_scalar {token : Token} {rest : List Token} {style : ScalarStyle}
    {content : String} (htokens : parser.tokens = token :: rest)
    (hkind : token.kind = .scalar style content) (inBlock : Bool) :
    parser.parseNode inBlock false =
      parser.skip.emit (.scalar none none style content) token.start := by
  simp [parseNode, peek, htokens, hkind, properties, resolveTag, ok_bind, pure, Except.pure]

theorem parseNode_sequence {token : Token} {rest : List Token}
    (htokens : parser.tokens = token :: rest) (hkind : token.kind = .flowSequenceStart)
    (inBlock : Bool) : parser.parseNode inBlock false =
      (parser.skip.push (.flowEntry true token.start)).emit (.sequenceStart none) token.start := by
  simp [parseNode, peek, htokens, hkind, properties, resolveTag, ok_bind, pure, Except.pure]

theorem parseNode_mapping {token : Token} {rest : List Token}
    (htokens : parser.tokens = token :: rest) (hkind : token.kind = .flowMappingStart)
    (inBlock : Bool) : parser.parseNode inBlock false =
      (parser.skip.push (.flowKey true token.start)).emit (.mappingStart none) token.start := by
  simp [parseNode, peek, htokens, hkind, properties, resolveTag, ok_bind, pure, Except.pure]

section Nodes

variable {inBlock : Bool}

theorem exists_emits_scalar {style : ScalarStyle} {content : String}
    (hat : base.IsAt stack (.scalar style content :: kinds))
    (hstep : parser.step = base.parseNode inBlock false)
    (hle : base.tokens.length ≤ parser.tokens.length) :
    ∃ after, parser.Emits [.scalar none none style content] after ∧ after.IsAt stack kinds := by
  rcases hat.exists_token with ⟨token, rest, htokens, hkind, _⟩
  rw [parseNode_scalar htokens hkind] at hstep
  exact ⟨base.skip, emits_of_taken hat hle hstep trivial hat.skip, hat.skip⟩

theorem exists_emits_sequenceStart (hat : base.IsAt stack (.flowSequenceStart :: kinds))
    (hstep : parser.step = base.parseNode inBlock false)
    (hle : base.tokens.length ≤ parser.tokens.length) :
    ∃ after start, parser.Emits [.sequenceStart none] after ∧
      after.IsAt (.flowEntry true start :: stack) kinds := by
  rcases hat.exists_token with ⟨token, rest, htokens, hkind, _⟩
  rw [parseNode_sequence htokens hkind] at hstep
  have hafter := hat.skip.push (.flowEntry true token.start)
  exact ⟨_, token.start, emits_of_taken hat hle hstep trivial hafter, hafter⟩

theorem exists_emits_mappingStart (hat : base.IsAt stack (.flowMappingStart :: kinds))
    (hstep : parser.step = base.parseNode inBlock false)
    (hle : base.tokens.length ≤ parser.tokens.length) :
    ∃ after start, parser.Emits [.mappingStart none] after ∧
      after.IsAt (.flowKey true start :: stack) kinds := by
  rcases hat.exists_token with ⟨token, rest, htokens, hkind, _⟩
  rw [parseNode_mapping htokens hkind] at hstep
  have hafter := hat.skip.push (.flowKey true token.start)
  exact ⟨_, token.start, emits_of_taken hat hle hstep trivial hafter, hafter⟩

end Nodes

/-! ## Collections -/

theorem exists_emits_sequenceEnd {isFirst : Bool}
    (hat : parser.IsAt (.flowEntry isFirst start :: stack) (.flowSequenceEnd :: kinds)) :
    ∃ after, parser.Emits [.sequenceEnd] after ∧ after.IsAt stack kinds := by
  rcases hat.exists_token with ⟨token, rest, htokens, hkind, _⟩
  have hstep : parser.step = parser.skip.pop.emit .sequenceEnd token.start := by
    simp [step, hat.stack_eq, parseFlowEntry, endFlow, peek, htokens, hkind, ok_bind]
  exact ⟨_, emits_of_taken hat (Nat.le_refl _) hstep trivial hat.skip.pop, hat.skip.pop⟩

theorem exists_emits_mappingEnd {isFirst : Bool}
    (hat : parser.IsAt (.flowKey isFirst start :: stack) (.flowMappingEnd :: kinds)) :
    ∃ after, parser.Emits [.mappingEnd] after ∧ after.IsAt stack kinds := by
  rcases hat.exists_token with ⟨token, rest, htokens, hkind, _⟩
  have hstep : parser.step = parser.skip.pop.emit .mappingEnd token.start := by
    simp [step, hat.stack_eq, parseFlowKey, endFlow, peek, htokens, hkind, ok_bind]
  exact ⟨_, emits_of_taken hat (Nat.le_refl _) hstep trivial hat.skip.pop, hat.skip.pop⟩

theorem step_firstItem {value : Json} (htextual : IsTextual value)
    (hat : parser.IsAt (.flowEntry true start :: stack) (tokensOf value ++ more)) :
    parser.step = (parser.become (.flowEntry false start)).parseNode false false := by
  rcases exists_tokensOf_eq_cons htextual with ⟨kind, kinds, hkinds, hbegins⟩
  rw [hkinds, List.cons_append] at hat
  rcases hat.exists_token with ⟨token, rest, htokens, hkind, _⟩
  cases hbegins <;>
    simp [step, hat.stack_eq, parseFlowEntry, passComma, peek, htokens, hkind, ok_bind,
      pure, Except.pure]

theorem step_furtherItem {value : Json} (htextual : IsTextual value)
    (hat : parser.IsAt (.flowEntry false start :: stack)
      (.flowEntry :: (tokensOf value ++ more))) :
    parser.step = (parser.skip.become (.flowEntry false start)).parseNode false false := by
  rcases exists_tokensOf_eq_cons htextual with ⟨kind, kinds, hkinds, hbegins⟩
  rw [hkinds, List.cons_append] at hat
  rcases hat.exists_token with ⟨token, rest, htokens, hkind, _⟩
  rcases hat.skip.exists_token with ⟨next, rest', htokens', hkind', _⟩
  cases hbegins <;>
    simp [step, hat.stack_eq, parseFlowEntry, passComma, peek, htokens, hkind, htokens', hkind',
      ok_bind, pure, Except.pure]

theorem step_firstKey {key : String}
    (hat : parser.IsAt (.flowKey true start :: stack)
      (.key :: .scalar .doubleQuoted key :: kinds)) :
    parser.step = (parser.skip.become (.flowValue false start)).parseNode false false := by
  rcases hat.exists_token with ⟨token, rest, htokens, hkind, _⟩
  rcases (hat.skip.become (.flowValue false start)).exists_token with
    ⟨next, rest', htokens', hkind', _⟩
  simp [step, hat.stack_eq, parseFlowKey, passComma, peek, htokens, hkind, htokens', hkind',
    ok_bind, pure, Except.pure]

theorem step_furtherKey {key : String}
    (hat : parser.IsAt (.flowKey false start :: stack)
      (.flowEntry :: .key :: .scalar .doubleQuoted key :: kinds)) :
    parser.step = (parser.skip.skip.become (.flowValue false start)).parseNode false false := by
  rcases hat.exists_token with ⟨token, rest, htokens, hkind, _⟩
  rcases hat.skip.exists_token with ⟨next, rest', htokens', hkind', _⟩
  rcases (hat.skip.skip.become (.flowValue false start)).exists_token with
    ⟨last, rest'', htokens'', hkind'', _⟩
  simp [step, hat.stack_eq, parseFlowKey, passComma, peek, htokens, hkind, htokens', hkind',
    htokens'', hkind'', ok_bind, pure, Except.pure]

theorem step_flowValue {value : Json} (htextual : IsTextual value)
    (hat : parser.IsAt (.flowValue false start :: stack) (.value :: (tokensOf value ++ more))) :
    parser.step = (parser.become (.flowKey false start)).skip.parseNode false false := by
  rcases exists_tokensOf_eq_cons htextual with ⟨kind, kinds, hkinds, hbegins⟩
  rw [hkinds, List.cons_append] at hat
  rcases hat.exists_token with ⟨token, rest, htokens, hkind, _⟩
  rcases (hat.become (.flowKey false start)).skip.exists_token with
    ⟨next, rest', htokens', hkind', _⟩
  cases hbegins <;>
    simp [step, hat.stack_eq, parseFlowValue, peek, htokens, hkind, htokens', hkind',
      ok_bind]

/-! ## Values -/

/-- Behind its key, the value of a member is a node again. -/
theorem exists_emits_key {key : String} {value : Json} (htextual : IsTextual value)
    (hat : base.IsAt (.flowValue false start :: stack)
      (.scalar .doubleQuoted key :: .value :: (tokensOf value ++ more)))
    (hstep : parser.step = base.parseNode false false)
    (hle : base.tokens.length ≤ parser.tokens.length) :
    ∃ keyed node : Parser, parser.Emits [.scalar none none .doubleQuoted key] keyed ∧
      keyed.step = node.parseNode false false ∧ node.tokens.length ≤ keyed.tokens.length ∧
      node.IsAt (.flowKey false start :: stack) (tokensOf value ++ more) := by
  rcases exists_emits_scalar hat hstep hle with ⟨keyed, hemits, hkeyed⟩
  have hnode := (hkeyed.become (.flowKey false start)).skip
  have hnodeLe := hkeyed.length_le hnode (Nat.le_add_right _ 1)
  exact ⟨keyed, _, hemits, step_flowValue htextual hkeyed, hnodeLe, hnode⟩

-- By the shape of the value: where a part of it begins, the state that waits for what follows
-- is on the stack already.
mutual

theorem exists_emits_value (value : Json) (htextual : IsTextual value) {inBlock : Bool}
    {stack : List ParserState} {more : List TokenKind} {parser base : Parser}
    (hat : base.IsAt stack (tokensOf value ++ more))
    (hstep : parser.step = base.parseNode inBlock false)
    (hle : base.tokens.length ≤ parser.tokens.length) :
    ∃ after, parser.Emits (eventsOf value) after ∧ after.IsAt stack more := by
  match value with
  | .string content => exact exists_emits_scalar hat hstep hle
  | .array [] =>
      rcases exists_emits_sequenceStart hat hstep hle with ⟨opened, start, hopen, hopened⟩
      rcases exists_emits_sequenceEnd hopened with ⟨after, hend, hafter⟩
      exact ⟨after, hopen.trans hend, hafter⟩
  | .array (first :: items) =>
      simp only [tokensOf, List.cons_append, List.append_assoc] at hat
      rcases exists_emits_sequenceStart hat hstep hle with ⟨opened, start, hopen, hopened⟩
      have hfirstStep := step_firstItem htextual.1 hopened
      have hnode := hopened.become (.flowEntry false start)
      rcases exists_emits_value first htextual.1 hnode hfirstStep (Nat.le_refl _) with
        ⟨middle, hfirst, hmiddle⟩
      rcases exists_emits_items items htextual.2 hmiddle with ⟨after, hitems, hafter⟩
      exact ⟨after, hopen.trans (hfirst.trans hitems), hafter⟩
  | .object [] =>
      rcases exists_emits_mappingStart hat hstep hle with ⟨opened, start, hopen, hopened⟩
      rcases exists_emits_mappingEnd hopened with ⟨after, hend, hafter⟩
      exact ⟨after, hopen.trans hend, hafter⟩
  | .object ((key, first) :: members) =>
      simp only [tokensOf, keyTokens, List.cons_append, List.nil_append, List.append_assoc] at hat
      rcases exists_emits_mappingStart hat hstep hle with ⟨opened, start, hopen, hopened⟩
      have hkey := hopened.skip.become (.flowValue false start)
      have hkeyLe := hopened.length_le hkey (Nat.le_add_right _ 1)
      rcases exists_emits_key htextual.2.1 hkey (step_firstKey hopened) hkeyLe with
        ⟨keyed, node, hkeyEmits, hnodeStep, hnodeLe, hnode⟩
      rcases exists_emits_value first htextual.2.1 hnode hnodeStep hnodeLe with
        ⟨middle, hfirst, hmiddle⟩
      rcases exists_emits_members members htextual.2.2 hmiddle with ⟨after, hmembers, hafter⟩
      exact ⟨after, hopen.trans (hkeyEmits.trans (hfirst.trans hmembers)), hafter⟩

theorem exists_emits_items (items : List Json) (htextual : ItemsAreTextual items) {start : Mark}
    {stack : List ParserState} {more : List TokenKind} {parser : Parser}
    (hat : parser.IsAt (.flowEntry false start :: stack) (tokensOfItems items ++ more)) :
    ∃ after, parser.Emits (eventsOfItems items) after ∧ after.IsAt stack more := by
  match items with
  | [] => exact exists_emits_sequenceEnd hat
  | item :: items =>
      simp only [tokensOfItems, List.cons_append, List.append_assoc] at hat
      have hitemStep := step_furtherItem htextual.1 hat
      have hnode := hat.skip.become (.flowEntry false start)
      have hnodeLe := hat.length_le hnode (Nat.le_add_right _ 1)
      rcases exists_emits_value item htextual.1 hnode hitemStep hnodeLe with
        ⟨middle, hitem, hmiddle⟩
      rcases exists_emits_items items htextual.2 hmiddle with ⟨after, hitems, hafter⟩
      exact ⟨after, hitem.trans hitems, hafter⟩

theorem exists_emits_members (members : List (String × Json))
    (htextual : MembersAreTextual members) {start : Mark} {stack : List ParserState}
    {more : List TokenKind} {parser : Parser}
    (hat : parser.IsAt (.flowKey false start :: stack) (tokensOfMembers members ++ more)) :
    ∃ after, parser.Emits (eventsOfMembers members) after ∧ after.IsAt stack more := by
  match members with
  | [] => exact exists_emits_mappingEnd hat
  | (key, value) :: members =>
      simp only [tokensOfMembers, keyTokens, List.cons_append, List.nil_append,
        List.append_assoc] at hat
      have hkey := hat.skip.skip.become (.flowValue false start)
      have hkeyLe := hat.length_le hkey (Nat.le_add_right _ 2)
      rcases exists_emits_key htextual.2.1 hkey (step_furtherKey hat) hkeyLe with
        ⟨keyed, node, hkeyEmits, hnodeStep, hnodeLe, hnode⟩
      rcases exists_emits_value value htextual.2.1 hnode hnodeStep hnodeLe with
        ⟨middle, hvalue, hmiddle⟩
      rcases exists_emits_members members htextual.2.2 hmiddle with ⟨after, hmembers, hafter⟩
      exact ⟨after, hkeyEmits.trans (hvalue.trans hmembers), hafter⟩

end

/-! ## Documents -/

theorem exists_step_documentStart {value : Json} (htextual : IsTextual value)
    (hat : parser.IsAt [.stream false] (tokensOf value ++ more)) :
    ∃ started mark, parser.step = .ok ({ kind := .documentStart, mark }, started) ∧
      started.IsAt [.blockNode, .documentEnd] (tokensOf value ++ more) := by
  have hshorthands : Parser.IsAt { parser with shorthands := defaultShorthands }
      [.stream false] (tokensOf value ++ more) := ⟨hat.stack_eq, hat.kinds_eq⟩
  have hstarted := (hshorthands.become .documentEnd).push .blockNode
  rcases exists_tokensOf_eq_cons htextual with ⟨kind, kinds, hkinds, hbegins⟩
  rw [hkinds, List.cons_append] at hat
  rcases hat.exists_token with ⟨token, rest, htokens, hkind, _⟩
  refine ⟨_, token.start, ?_, hstarted⟩
  cases hbegins <;>
    simp [step, hat.stack_eq, parseStream, peek, htokens, hkind, emit, ok_bind]

theorem firstDocument_at_end (hat : parser.IsAt [.documentEnd] [.streamEnd]) (fuel : Nat) :
    parser.firstDocument (fuel + 1) = ([], .alone) := by
  rcases hat.exists_token with ⟨token, rest, htokens, hkind, _⟩
  have hstep : parser.step =
      ({ parser.become (.stream true) with shorthands := [] } : Parser).emit .documentEnd
        token.start := by
    simp [step, hat.stack_eq, parseDocumentEnd, peek, htokens, hkind, ok_bind]
  have hending : ({ parser.become (.stream true) with shorthands := [] } : Parser).ending =
      .alone := by
    simp [ending, step, become, parseStream, peek, htokens, hkind, emit, ok_bind]
  simp [firstDocument, hstep, emit, hending]

/-- A value is the only document of its tokens. -/
theorem firstDocument_of_tokens {value : Json} (htextual : IsTextual value)
    (hat : parser.IsAt [.stream false] (tokensOf value ++ [.streamEnd])) {fuel : Nat}
    (hfuel : parser.tokens.length < fuel) :
    ∃ events, events.map Event.kind = eventsOf value ∧
      parser.firstDocument (fuel + 1) = (events, .alone) := by
  rcases exists_step_documentStart htextual hat with ⟨started, mark, hstart, hstarted⟩
  have hnodeLe := hstarted.length_le hstarted.pop (Nat.le_refl _)
  have hnodeStep : started.step = started.pop.parseNode true false := by
    rw [step, hstarted.stack_eq]
  rcases exists_emits_value value htextual hstarted.pop hnodeStep hnodeLe with
    ⟨after, ⟨events, hkinds, hrun⟩, hafter⟩
  rcases hrun fuel (Nat.lt_of_le_of_lt (hat.length_le hstarted (Nat.le_refl _)) hfuel) with
    ⟨left, hleft, hdocument⟩
  refine ⟨events, hkinds, ?_⟩
  cases left with
  | zero => exact absurd hleft (Nat.not_lt_zero _)
  | succ left =>
      rw [firstDocument_at_end hafter, List.append_nil] at hdocument
      simp only [firstDocument, hstart, hdocument]

end Parser

theorem parseEvents_of_tokens {value : Json} {tokens : List Token} (htextual : IsTextual value)
    (htokens : tokens.map Token.kind = tokensOf value ++ [.streamEnd]) :
    ∃ events, events.map Event.kind = eventsOf value ∧ parseEvents tokens = (events, .alone) := by
  have hat : Parser.IsAt { tokens } [.stream false] (tokensOf value ++ [.streamEnd]) :=
    ⟨rfl, htokens⟩
  have hfuel : tokens.length < 4 * tokens.length + 7 := by
    omega
  exact Parser.firstDocument_of_tokens htextual hat hfuel

end ErrorTaxonomy.Yaml
