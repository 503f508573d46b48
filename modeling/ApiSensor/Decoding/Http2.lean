import ApiSensor.Http2
import ApiSensor.Library.Incremental

/-!
# HTTP/2 decoding and chunk boundaries

`Http2Direction::feed` keeps an incomplete preface or frame for the next call and handles every
frame once.  A direction that fails ignores the rest, whether it is there already or not.
-/

namespace ApiSensor

open Library

namespace Http2Direction

variable {P : Platform}

/-! ## Header blocks -/

/-- The block that is opened or continued here, if this frame ends it. -/
def endedBlock (flags : UInt8) (block : HeaderBlock) : Option HeaderBlock :=
  if hasFlag flags 0x04 then some block else none

/-- The header block that a frame completes, which is then given to HPACK. -/
def completedBlock (dir : Http2Direction P) (ftype flags : UInt8) (streamId : UInt32)
    (payload : Bytes) : Option HeaderBlock :=
  match dir.continuation with
  | some pending =>
    if ftype ≠ 0x09 || streamId ≠ pending.streamId then none
    else if h2MaxHeaderBlockBytes < pending.bytes.length + payload.length then none
    else endedBlock flags { pending with bytes := pending.bytes ++ payload }
  | none =>
    if ftype = 0x01 then
      if streamId = 0 then none
      else
        ((unpad flags payload).bind (dropPriority flags)).bind fun frag =>
          if h2MaxHeaderBlockBytes < frag.length then none
          else endedBlock flags ⟨streamId, frag, hasFlag flags 0x01, false⟩
    else if ftype = 0x05 then
      (unpad flags payload).bind fun frag =>
        if frag.length < 4 || h2MaxHeaderBlockBytes < frag.length - 4 then none
        else endedBlock flags ⟨streamId, frag.drop 4, false, true⟩
    else none

/-- The header blocks that the frame loop gives to HPACK. -/
def handedBlocks : Nat → Http2Direction P → Bytes → List HeaderBlock
  | 0, _, _ => []
  | fuel + 1, dir, rest =>
    if rest.length < 9 then []
    else
      let len := frameLength rest
      if dir.maxFrame < len then []
      else if rest.length < 9 + len then []
      else
        let ftype := rest.getD 3 0
        let flags := rest.getD 4 0
        let streamId := streamIdOf ((rest.drop 5).take 4)
        let payload := (rest.drop 9).take len
        let dir' := (dir.onFrame ftype flags streamId payload).1
        (dir.completedBlock ftype flags streamId payload).toList ++
          if dir'.broken then [] else handedBlocks fuel dir' (rest.drop (9 + len))

/-- The header blocks that one call of `feed` gives to HPACK. -/
def fedBlocks (dir : Http2Direction P) (data : Bytes) : List HeaderBlock :=
  if dir.broken then []
  else
    let buf := dir.buf ++ data
    if dir.prefaceDone then dir.handedBlocks buf.length buf
    else if http2ConnectionPreface.length ≤ buf.length then
      if http2ConnectionPreface.isPrefixOf buf then
        let rest := buf.drop http2ConnectionPreface.length
        { dir with prefaceDone := true }.handedBlocks rest.length rest
      else []
    else []

/-! ## Frames do not look at the buffer -/

/-- The direction without what it has buffered. -/
def unbuffered (dir : Http2Direction P) : Http2Direction P := { dir with buf := [] }

section

variable (dir : Http2Direction P)
include dir

theorem finishBlock_unbuffered (block : HeaderBlock) :
    dir.unbuffered.finishBlock block =
      ((dir.finishBlock block).1.unbuffered, (dir.finishBlock block).2) := by
  unfold finishBlock unbuffered
  dsimp only
  split
  · rfl
  · split <;> rfl

section

variable (flags : UInt8) (streamId : UInt32) (payload : Bytes)

theorem openBlock_unbuffered (block : HeaderBlock) :
    dir.unbuffered.openBlock flags block =
      ((dir.openBlock flags block).1.unbuffered, (dir.openBlock flags block).2) := by
  unfold openBlock
  split
  · exact dir.finishBlock_unbuffered block
  · rfl

theorem onContinuation_unbuffered (pending : HeaderBlock) (ftype flags : UInt8) (streamId : UInt32)
    (payload : Bytes) :
    dir.unbuffered.onContinuation pending ftype flags streamId payload =
      ((dir.onContinuation pending ftype flags streamId payload).1.unbuffered,
        (dir.onContinuation pending ftype flags streamId payload).2) := by
  unfold onContinuation
  dsimp only
  split
  · rfl
  · split
    · rfl
    · exact openBlock_unbuffered { dir with continuation := none } _ _

theorem onHeaders_unbuffered :
    dir.unbuffered.onHeaders flags streamId payload =
      ((dir.onHeaders flags streamId payload).1.unbuffered,
        (dir.onHeaders flags streamId payload).2) := by
  unfold onHeaders
  split
  · rfl
  · split
    · rfl
    · split
      · rfl
      · exact dir.openBlock_unbuffered _ _

theorem onPushPromise_unbuffered :
    dir.unbuffered.onPushPromise flags streamId payload =
      ((dir.onPushPromise flags streamId payload).1.unbuffered,
        (dir.onPushPromise flags streamId payload).2) := by
  unfold onPushPromise
  split
  · rfl
  · split
    · rfl
    · exact dir.openBlock_unbuffered _ _

end

theorem onFrame_unbuffered (ftype flags : UInt8) (streamId : UInt32) (payload : Bytes) :
    dir.unbuffered.onFrame ftype flags streamId payload =
      ((dir.onFrame ftype flags streamId payload).1.unbuffered,
        (dir.onFrame ftype flags streamId payload).2) := by
  have same : dir.unbuffered.continuation = dir.continuation := rfl
  unfold onFrame
  rw [same]
  cases dir.continuation with
  | some pending => exact dir.onContinuation_unbuffered pending ftype flags streamId payload
  | none =>
    dsimp only
    split_ifs
    · rfl
    · cases unpad flags payload <;> rfl
    · exact dir.onHeaders_unbuffered flags streamId payload
    · rfl
    · rfl
    · rfl
    · rfl
    · exact dir.onPushPromise_unbuffered flags streamId payload
    · rfl
    · rfl
    · rfl
    · rfl

end

/-! ## The loop as parser turns -/

/-- What the decoding of a direction produces: items, and the header blocks given to HPACK. -/
abbrev Output := H2Item ⊕ HeaderBlock

/-- What one frame produces. -/
def outputs (items : List H2Item) (block : Option HeaderBlock) : List Output :=
  block.toList.map .inr ++ items.map .inl

theorem items_outputs (items : List H2Item) (block : Option HeaderBlock) :
    (outputs items block).filterMap Sum.getLeft? = items := by
  have blocks : (block.toList.map Sum.inr : List Output).filterMap Sum.getLeft? = [] := by
    cases block <;> rfl
  rw [outputs, List.filterMap_append, blocks, List.filterMap_map]
  simp [Function.comp_def]

theorem blocks_outputs (items : List H2Item) (block : Option HeaderBlock) :
    (outputs items block).filterMap Sum.getRight? = block.toList := by
  have blocks : (block.toList.map Sum.inr : List Output).filterMap Sum.getRight? =
      block.toList := by
    cases block <;> rfl
  rw [outputs, List.filterMap_append, blocks, List.filterMap_map]
  simp [Function.comp_def]

/-- The turn on a frame. -/
def frameTurn (dir : Http2Direction P) (rest : Bytes) :
    ParserTurn (Http2Direction P) UInt8 Output :=
  if rest.length < 9 then .stop dir rest []
  else
    let len := frameLength rest
    if dir.maxFrame < len then .stop dir.fail [] []
    else if rest.length < 9 + len then .stop dir rest []
    else
      let ftype := rest.getD 3 0
      let flags := rest.getD 4 0
      let streamId := streamIdOf ((rest.drop 5).take 4)
      let payload := (rest.drop 9).take len
      let result := dir.onFrame ftype flags streamId payload
      .next result.1 (rest.drop (9 + len))
        (outputs result.2 (dir.completedBlock ftype flags streamId payload))

/-- The turn on the connection preface. -/
def prefaceTurn (dir : Http2Direction P) (rest : Bytes) :
    ParserTurn (Http2Direction P) UInt8 Output :=
  if http2ConnectionPreface.length ≤ rest.length then
    if http2ConnectionPreface.isPrefixOf rest then
      .next { dir with prefaceDone := true } (rest.drop http2ConnectionPreface.length) []
    else .stop dir.fail [] []
  else if rest.isPrefixOf http2ConnectionPreface then .stop dir rest []
  else .stop dir.fail [] []

/-- One turn of a direction: preface first, then frames, nothing once it is broken. -/
def parserTurn (dir : Http2Direction P) (rest : Bytes) :
    ParserTurn (Http2Direction P) UInt8 Output :=
  if dir.broken then .stop dir [] []
  else if dir.prefaceDone then dir.frameTurn rest
  else dir.prefaceTurn rest

section Turns

variable {dir middle : Http2Direction P} {rest more left : Bytes} {produced : List Output}

theorem parserTurn_of_broken (broken : dir.broken = true) (rest : Bytes) :
    dir.parserTurn rest = .stop dir [] [] := by
  rw [parserTurn, if_pos broken]

theorem frameLength_append (header : 9 ≤ rest.length) (more : Bytes) :
    frameLength (rest ++ more) = frameLength rest := by
  unfold frameLength
  rw [List.take_append_of_le_length (by omega)]

theorem getD_append {index : Nat} (inside : index < rest.length) (more : Bytes) :
    (rest ++ more).getD index 0 = rest.getD index 0 := by
  rw [List.getD_eq_getElem?_getD, List.getElem?_append_left inside, List.getD_eq_getElem?_getD]

theorem take_drop_append {start length : Nat} (inside : start + length ≤ rest.length)
    (more : Bytes) : ((rest ++ more).drop start).take length = (rest.drop start).take length := by
  rw [List.drop_append_of_le_length (by omega), List.take_append_of_le_length]
  rw [List.length_drop]
  omega

theorem frameTurn_append_next (goes : dir.frameTurn rest = .next middle left produced)
    (more : Bytes) : dir.frameTurn (rest ++ more) = .next middle (left ++ more) produced := by
  unfold frameTurn at goes ⊢
  dsimp only at goes ⊢
  split at goes
  · cases goes
  · rename_i long
    have header : 9 ≤ rest.length := by omega
    split at goes
    · cases goes
    · rename_i allowed
      split at goes
      · cases goes
      · rename_i whole
        cases goes
        rw [List.length_append, frameLength_append header]
        rw [if_neg (by omega), if_neg allowed, if_neg (by omega), getD_append (by omega),
          getD_append (by omega), take_drop_append (by omega), take_drop_append (by omega),
          List.drop_append_of_le_length (by omega)]

theorem prefaceTurn_append_next (goes : dir.prefaceTurn rest = .next middle left produced)
    (more : Bytes) : dir.prefaceTurn (rest ++ more) = .next middle (left ++ more) produced := by
  unfold prefaceTurn at goes ⊢
  split at goes
  · rename_i long
    split at goes
    · rename_i begins
      cases goes
      have longer : http2ConnectionPreface <+: rest ++ more :=
        (List.isPrefixOf_iff_prefix.mp begins).trans (List.prefix_append rest more)
      rw [if_pos (by rw [List.length_append]; omega),
        if_pos (List.isPrefixOf_iff_prefix.mpr longer), List.drop_append_of_le_length long]
    · cases goes
  · split at goes <;> cases goes

/-- A turn that returned waits for more, or has failed for good. -/
theorem frameTurn_append_stop (stops : dir.frameTurn rest = .stop middle left produced)
    (more : Bytes) :
    (middle = dir ∧ left = rest ∧ produced = []) ∨
      (middle = dir.fail ∧ left = [] ∧ produced = [] ∧
        dir.frameTurn (rest ++ more) = .stop dir.fail [] []) := by
  unfold frameTurn at stops ⊢
  dsimp only at stops ⊢
  split at stops
  · cases stops
    exact .inl ⟨rfl, rfl, rfl⟩
  · rename_i long
    have header : 9 ≤ rest.length := by omega
    split at stops
    · rename_i exceeds
      cases stops
      refine .inr ⟨rfl, rfl, rfl, ?_⟩
      rw [List.length_append, frameLength_append header, if_neg (by omega), if_pos exceeds]
    · split at stops
      · cases stops
        exact .inl ⟨rfl, rfl, rfl⟩
      · cases stops

theorem prefaceTurn_append_stop (stops : dir.prefaceTurn rest = .stop middle left produced)
    (more : Bytes) :
    (middle = dir ∧ left = rest ∧ produced = []) ∨
      (middle = dir.fail ∧ left = [] ∧ produced = [] ∧
        dir.prefaceTurn (rest ++ more) = .stop dir.fail [] []) := by
  unfold prefaceTurn at stops ⊢
  split at stops
  · rename_i long
    split at stops
    · cases stops
    · rename_i differs
      cases stops
      refine .inr ⟨rfl, rfl, rfl, ?_⟩
      have differs' : ¬ http2ConnectionPreface.isPrefixOf (rest ++ more) = true := by
        intro begins
        refine differs (List.isPrefixOf_iff_prefix.mpr ?_)
        exact List.prefix_of_prefix_length_le (List.isPrefixOf_iff_prefix.mp begins)
          (List.prefix_append rest more) long
      rw [if_pos (by rw [List.length_append]; omega), if_neg differs']
  · rename_i short
    split at stops
    · cases stops
      exact .inl ⟨rfl, rfl, rfl⟩
    · rename_i differs
      cases stops
      refine .inr ⟨rfl, rfl, rfl, ?_⟩
      -- more bytes do not make the ones that are there begin the preface
      split
      · have differs' : ¬ http2ConnectionPreface.isPrefixOf (rest ++ more) = true := by
          intro begins
          refine differs (List.isPrefixOf_iff_prefix.mpr ?_)
          exact List.prefix_of_prefix_length_le (List.prefix_append rest more)
            (List.isPrefixOf_iff_prefix.mp begins) (by omega)
        rw [if_neg differs']
      · have differs' : ¬ (rest ++ more).isPrefixOf http2ConnectionPreface = true := by
          intro begins
          refine differs (List.isPrefixOf_iff_prefix.mpr ?_)
          exact (List.prefix_append rest more).trans (List.isPrefixOf_iff_prefix.mp begins)
        rw [if_neg differs']

theorem parserTurn_append_stop (stops : dir.parserTurn rest = .stop middle left produced)
    (more : Bytes) :
    (dir.broken = false ∧ middle = dir ∧ left = rest ∧ produced = []) ∨
      (middle.broken = true ∧ left = [] ∧ produced = [] ∧
        dir.parserTurn (rest ++ more) = .stop middle [] []) := by
  unfold parserTurn at stops ⊢
  split at stops
  · rename_i broken
    cases stops
    exact .inr ⟨broken, rfl, rfl, if_pos broken⟩
  · rename_i working
    rw [if_neg working]
    have working' := Bool.eq_false_iff.mpr working
    split at stops
    · rename_i opened
      rw [if_pos opened]
      rcases frameTurn_append_stop stops more with waits | ⟨rfl, empty, nothing, fails⟩
      · exact .inl ⟨working', waits⟩
      · exact .inr ⟨rfl, empty, nothing, fails⟩
    · rename_i unopened
      rw [if_neg unopened]
      rcases prefaceTurn_append_stop stops more with waits | ⟨rfl, empty, nothing, fails⟩
      · exact .inl ⟨working', waits⟩
      · exact .inr ⟨rfl, empty, nothing, fails⟩

/-- The loop of a direction can be cut anywhere. -/
theorem cuttable :
    Cuttable (parserTurn : Http2Direction P → Bytes → _) (fun _ _ => True) fun _ => false where
  next _ goes := by
    unfold parserTurn at goes ⊢
    split at goes
    · cases goes
    · rename_i working
      rw [if_neg working]
      split at goes
      · rename_i opened
        rw [if_pos opened]
        exact frameTurn_append_next goes _
      · rename_i unopened
        rw [if_neg unopened]
        exact prefaceTurn_append_next goes _
  nonfatal _ _ _ := rfl
  stop {dir rest more middle left produced} throughout stops := by
    refine .inr ⟨fun _ _ => rfl, ?_⟩
    rcases parserTurn_append_stop stops more with ⟨-, rfl, rfl, rfl⟩ | ⟨broken, rfl, rfl, same⟩
    · exact ⟨throughout, fun whole => ⟨_, whole, rfl⟩⟩
    · have silent : Drains parserTurn middle ([] ++ more) middle [] [] :=
        .stop (parserTurn_of_broken broken _)
      refine ⟨silent.throughout fun _ _ => trivial, fun whole => ?_⟩
      obtain ⟨rfl, rfl, rfl⟩ := (Drains.stop same).unique whole
      exact ⟨[], silent, rfl⟩

/-- A direction that ends up broken keeps nothing. -/
theorem left_of_broken (drains : Drains parserTurn dir rest middle left produced)
    (broken : middle.broken = true) : left = [] := by
  induction drains with
  | stop stops =>
    rcases parserTurn_append_stop stops [] with ⟨working, rfl, -⟩ | ⟨-, empty, -⟩
    · exact absurd (working.symm.trans broken) Bool.false_ne_true
    · exact empty
  | next _ _ induction => exact induction broken

end Turns

/-! ## `feed` as the loop -/

theorem completedBlock_unbuffered (dir : Http2Direction P) (ftype flags : UInt8)
    (streamId : UInt32) (payload : Bytes) :
    dir.unbuffered.completedBlock ftype flags streamId payload =
      dir.completedBlock ftype flags streamId payload := rfl

variable {dir : Http2Direction P}

theorem buf_of_broken (working : dir.broken = false) (ftype flags : UInt8) (streamId : UInt32)
    (payload : Bytes) (broken : (dir.onFrame ftype flags streamId payload).1.broken = true) :
    (dir.onFrame ftype flags streamId payload).1.buf = [] := by
  rcases frameEffect_onFrame dir ftype flags streamId payload with ⟨-, empty⟩ | ⟨same, -, -⟩
  · rw [buffered, Nat.add_eq_zero_iff] at empty
    exact List.eq_nil_of_length_eq_zero empty.1
  · rw [same, working] at broken
    exact absurd broken Bool.false_ne_true

theorem prefaceDone_openBlock (dir : Http2Direction P) (flags : UInt8) (block : HeaderBlock) :
    (dir.openBlock flags block).1.prefaceDone = dir.prefaceDone := by
  unfold openBlock
  split
  · unfold finishBlock
    split
    · rfl
    · split <;> rfl
  · rfl

theorem prefaceDone_onFrame (dir : Http2Direction P) (ftype flags : UInt8) (streamId : UInt32)
    (payload : Bytes) :
    (dir.onFrame ftype flags streamId payload).1.prefaceDone = dir.prefaceDone := by
  unfold onFrame
  cases dir.continuation with
  | some pending =>
    dsimp only [onContinuation]
    split_ifs
    · rfl
    · rfl
    · exact prefaceDone_openBlock _ _ _
  | none =>
    dsimp only [onHeaders, onPushPromise]
    split_ifs
    · rfl
    · cases unpad flags payload <;> rfl
    · rfl
    · cases (unpad flags payload).bind (dropPriority flags) with
      | none => rfl
      | some frag =>
        dsimp only
        split
        · rfl
        · exact prefaceDone_openBlock _ _ _
    · rfl
    · rfl
    · rfl
    · rfl
    · cases unpad flags payload with
      | none => rfl
      | some frag =>
        dsimp only
        split
        · rfl
        · exact prefaceDone_openBlock _ _ _
    · rfl
    · rfl
    · rfl
    · rfl

theorem parserTurn_frames (working : dir.broken = false) (opened : dir.prefaceDone = true)
    (rest : Bytes) :
    dir.unbuffered.parserTurn rest = dir.unbuffered.frameTurn rest := by
  have working' : ¬ dir.unbuffered.broken = true := by
    rw [unbuffered, working]
    exact Bool.false_ne_true
  rw [parserTurn, if_neg working', if_pos (show dir.unbuffered.prefaceDone = true from opened)]

/-- The frame loop takes the turns of the direction; the outputs are its items and the blocks that
it gives to HPACK. -/
theorem drains_frames {fuel : Nat} {rest : Bytes} (working : dir.broken = false)
    (opened : dir.prefaceDone = true) (enough : rest.length ≤ fuel) :
    ∃ produced, Drains parserTurn dir.unbuffered rest (dir.frames fuel rest).1.unbuffered
        (dir.frames fuel rest).1.buf produced ∧
      produced.filterMap Sum.getLeft? = (dir.frames fuel rest).2 ∧
      produced.filterMap Sum.getRight? = dir.handedBlocks fuel rest := by
  induction fuel generalizing dir rest with
  | zero =>
    have empty : rest = [] := List.eq_nil_of_length_eq_zero (by omega)
    subst empty
    exact ⟨[], .stop (parserTurn_frames working opened []), rfl, rfl⟩
  | succ fuel induction =>
    have turn := parserTurn_frames working opened rest
    unfold frameTurn at turn
    by_cases short : rest.length < 9
    · simp only [frames, handedBlocks, if_pos short] at turn ⊢
      exact ⟨[], .stop turn, rfl, rfl⟩
    · by_cases exceeds : dir.maxFrame < frameLength rest
      · have exceeds' : dir.unbuffered.maxFrame < frameLength rest := exceeds
        simp only [frames, handedBlocks, if_neg short, if_pos exceeds, if_pos exceeds'] at turn ⊢
        exact ⟨[], .stop turn, rfl, rfl⟩
      · have allowed : ¬ dir.unbuffered.maxFrame < frameLength rest := exceeds
        by_cases incomplete : rest.length < 9 + frameLength rest
        · simp only [frames, handedBlocks, if_neg short, if_neg exceeds, if_neg allowed,
            if_pos incomplete] at turn ⊢
          exact ⟨[], .stop turn, rfl, rfl⟩
        · simp only [if_neg short, if_neg allowed, if_neg incomplete, onFrame_unbuffered,
            completedBlock_unbuffered] at turn
          simp only [frames, handedBlocks, if_neg short, if_neg exceeds, if_neg incomplete]
          have opens := (dir.prefaceDone_onFrame (rest.getD 3 0) (rest.getD 4 0)
            (streamIdOf ((rest.drop 5).take 4)) ((rest.drop 9).take (frameLength rest))).trans
            opened
          have drops := buf_of_broken working (rest.getD 3 0) (rest.getD 4 0)
            (streamIdOf ((rest.drop 5).take 4)) ((rest.drop 9).take (frameLength rest))
          generalize dir.onFrame (rest.getD 3 0) (rest.getD 4 0)
            (streamIdOf ((rest.drop 5).take 4)) ((rest.drop 9).take (frameLength rest)) =
            result at turn opens drops ⊢
          cases broken : result.1.broken with
          | true =>
            have silent : Drains parserTurn result.1.unbuffered
                (rest.drop (9 + frameLength rest)) result.1.unbuffered result.1.buf [] := by
              rw [drops broken]
              exact .stop (parserTurn_of_broken
                (show result.1.unbuffered.broken = true from broken) _)
            rw [if_pos rfl, if_pos rfl]
            refine ⟨_, .next turn silent, ?_⟩
            rw [List.append_nil, items_outputs, blocks_outputs, List.append_nil]
            exact ⟨rfl, rfl⟩
          | false =>
            have fewer : (rest.drop (9 + frameLength rest)).length ≤ fuel := by
              rw [List.length_drop]
              omega
            obtain ⟨produced, later, items, blocks⟩ := induction broken opens fewer
            rw [if_neg Bool.false_ne_true, if_neg Bool.false_ne_true]
            refine ⟨_, .next turn later, ?_⟩
            rw [List.filterMap_append, List.filterMap_append, items_outputs, blocks_outputs,
              items, blocks]
            exact ⟨rfl, rfl⟩

/-- `feed` drains what is buffered and what is fed. -/
theorem drains_feed (empty : dir.broken = true → dir.buf = []) (data : Bytes) :
    ∃ produced, Drains parserTurn dir.unbuffered (dir.buf ++ data) (dir.feed data).1.unbuffered
        (dir.feed data).1.buf produced ∧
      produced.filterMap Sum.getLeft? = (dir.feed data).2 ∧
      produced.filterMap Sum.getRight? = dir.fedBlocks data := by
  cases broken : dir.broken with
  | true =>
    have silent : Drains parserTurn dir.unbuffered ([] ++ data) dir.unbuffered [] [] :=
      .stop (parserTurn_of_broken (show dir.unbuffered.broken = true from broken) _)
    rw [feed, fedBlocks, if_pos broken, if_pos broken]
    refine ⟨[], ?_, rfl, rfl⟩
    dsimp only
    rw [empty broken]
    exact silent
  | false =>
    have working : ¬ dir.broken = true := by
      rw [broken]
      exact Bool.false_ne_true
    rw [feed, fedBlocks, if_neg working, if_neg working]
    dsimp only
    by_cases opened : dir.prefaceDone = true
    · rw [if_pos opened, if_pos opened]
      exact drains_frames broken opened (Nat.le_refl (dir.buf ++ data).length)
    · rw [if_neg opened, if_neg opened]
      have turn : dir.unbuffered.parserTurn (dir.buf ++ data) =
          dir.unbuffered.prefaceTurn (dir.buf ++ data) := by
        rw [parserTurn, if_neg (show ¬ dir.unbuffered.broken = true from working),
          if_neg (show ¬ dir.unbuffered.prefaceDone = true from opened)]
      unfold prefaceTurn at turn
      by_cases long : http2ConnectionPreface.length ≤ (dir.buf ++ data).length
      · rw [if_pos long] at turn
        rw [if_pos long, if_pos long]
        by_cases begins : http2ConnectionPreface.isPrefixOf (dir.buf ++ data) = true
        · rw [if_pos begins] at turn
          rw [if_pos begins, if_pos begins]
          have working' : { dir with prefaceDone := true }.broken = false := broken
          obtain ⟨produced, later, parts⟩ := drains_frames working' rfl
            (Nat.le_refl ((dir.buf ++ data).drop http2ConnectionPreface.length).length)
          exact ⟨produced, .next turn later, parts⟩
        · rw [if_neg begins] at turn
          rw [if_neg begins, if_neg begins]
          exact ⟨[], .stop turn, rfl, rfl⟩
      · rw [if_neg long] at turn
        rw [if_neg long, if_neg long]
        by_cases begins : (dir.buf ++ data).isPrefixOf http2ConnectionPreface = true
        · rw [if_pos begins] at turn
          rw [if_pos begins]
          exact ⟨[], .stop turn, rfl, rfl⟩
        · rw [if_neg begins] at turn
          rw [if_neg begins]
          exact ⟨[], .stop turn, rfl, rfl⟩

/-! ## Cutting the stream -/

/-- A direction is broken only with an empty buffer. -/
def DropsAll (dir : Http2Direction P) : Prop := dir.broken = true → dir.buf = []

theorem DropsAll.feed (drops : dir.DropsAll) (data : Bytes) :
    (dir.feed data).1.DropsAll := by
  obtain ⟨_, drains, -, -⟩ := drains_feed drops data
  intro broken
  exact left_of_broken drains broken

theorem eq_of_unbuffered {other : Http2Direction P} (same : dir.unbuffered = other.unbuffered)
    (buf : dir.buf = other.buf) : dir = other := by
  cases dir
  cases other
  cases buf
  cases same
  rfl

/-- One call of `feed` does what two do on the parts of its data. -/
theorem feed_append (drops : dir.DropsAll) (data more : Bytes) :
    dir.feed (data ++ more) =
        (((dir.feed data).1.feed more).1, (dir.feed data).2 ++ ((dir.feed data).1.feed more).2) ∧
      dir.fedBlocks (data ++ more) =
        dir.fedBlocks data ++ (dir.feed data).1.fedBlocks more := by
  obtain ⟨first, drainsFirst, firstItems, firstBlocks⟩ := drains_feed drops data
  obtain ⟨second, drainsSecond, secondItems, secondBlocks⟩ :=
    drains_feed (drops.feed data) more
  obtain ⟨all, drainsAll, allItems, allBlocks⟩ := drains_feed drops (data ++ more)
  rw [← List.append_assoc] at drainsAll
  rcases cuttable.cut drainsFirst (drainsAll.throughout fun _ _ => trivial) drainsAll with
    ⟨⟨_, _, failed⟩, -⟩ | ⟨-, -, later, resumes, rfl⟩
  · exact absurd failed Bool.false_ne_true
  · obtain ⟨state, left, rfl⟩ := drainsSecond.unique resumes
    rw [List.filterMap_append, firstItems, secondItems] at allItems
    rw [List.filterMap_append, firstBlocks, secondBlocks] at allBlocks
    exact ⟨Prod.ext (eq_of_unbuffered state left) allItems.symm, allBlocks.symm⟩

/-- Feed the chunks of a stream one after the other. -/
def feedChunks (dir : Http2Direction P) : List Bytes → Http2Direction P × List H2Item
  | [] => (dir, [])
  | chunk :: chunks =>
    let first := dir.feed chunk
    let rest := first.1.feedChunks chunks
    (rest.1, first.2 ++ rest.2)

/-- The header blocks that HPACK is given on the way. -/
def chunkBlocks (dir : Http2Direction P) : List Bytes → List HeaderBlock
  | [] => []
  | chunk :: chunks => dir.fedBlocks chunk ++ (dir.feed chunk).1.chunkBlocks chunks

theorem feedChunks_cons (drops : dir.DropsAll) (chunk : Bytes) (chunks : List Bytes) :
    dir.feedChunks (chunk :: chunks) = dir.feed (chunk :: chunks).flatten ∧
      dir.chunkBlocks (chunk :: chunks) = dir.fedBlocks (chunk :: chunks).flatten := by
  induction chunks generalizing dir chunk with
  | nil => simp [feedChunks, chunkBlocks]
  | cons second chunks induction =>
    obtain ⟨items, blocks⟩ := induction (drops.feed chunk) second
    obtain ⟨whole, wholeBlocks⟩ := feed_append drops chunk (second :: chunks).flatten
    rw [feedChunks, chunkBlocks, items, blocks]
    exact ⟨whole.symm, wholeBlocks.symm⟩

/-- Neither the state of a direction nor its items nor the header blocks it gives to HPACK depend
on how its stream is cut. -/
theorem feedChunks_eq_feed_flatten (expectPreface : Bool) (maxFrame : Nat) (chunks : List Bytes) :
    let dir : Http2Direction P := { new expectPreface with maxFrame }
    dir.feedChunks chunks = dir.feed chunks.flatten ∧
      dir.chunkBlocks chunks = dir.fedBlocks chunks.flatten := by
  cases chunks with
  | nil => cases expectPreface <;> exact ⟨rfl, rfl⟩
  | cons chunk chunks => exact feedChunks_cons (fun _ => rfl) chunk chunks

end Http2Direction

end ApiSensor
