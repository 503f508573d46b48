import ApiSensor.Decoding.Http2
import ApiSensor.Decoding.Http2Limits

/-!
# Header blocks and their items

The `Headers` items of a direction are a function of the header blocks that it gives to HPACK, in
their order.  `finish_block` counts a block that cannot be decoded and goes on with the next one, so
what follows it is interpreted with whatever table is left.
-/

namespace ApiSensor

open Library

/-- The block is rejected by `validate_hpack_block`, or the HPACK crate panics or fails on it. -/
def Http2HpackDecoder.Fails {P : Platform} (decoder : Http2HpackDecoder P) (block : Bytes) : Prop :=
  validateHpackBlock block = false ∨ (P.hpack.decode decoder.inner block).1.join = none

instance {P : Platform} (decoder : Http2HpackDecoder P) (block : Bytes) :
    Decidable (decoder.Fails block) :=
  inferInstanceAs (Decidable (_ ∨ _))

theorem Http2HpackDecoder.decode_eq_none_iff {P : Platform} (decoder : Http2HpackDecoder P)
    (block : Bytes) : (decoder.decode block).1 = none ↔ decoder.Fails block := by
  unfold decode Fails
  cases valid : validateHpackBlock block with
  | false => simp
  | true =>
    rcases result : P.hpack.decode decoder.inner block with ⟨_ | _ | fields, inner⟩ <;> simp

def H2Item.isHeaders : H2Item → Bool
  | headers _ _ _ => true
  | _ => false

namespace Http2Direction

variable {P : Platform}

/-! ## What a header block brings -/

/-- The item that `finish_block` emits for a block. -/
def blockItem (hpack : Http2HpackDecoder P) (block : HeaderBlock) : Option H2Item :=
  if block.promise then none
  else (hpack.decode block.bytes).1.map fun fields =>
    .headers block.streamId (blockHeaders fields) block.endStream

/-- The items of header blocks that are decoded one after the other. -/
def blockItems : Http2HpackDecoder P → List HeaderBlock → List H2Item
  | _, [] => []
  | hpack, block :: blocks =>
    (blockItem hpack block).toList ++ blockItems (hpack.decode block.bytes).2 blocks

/-- HPACK after a sequence of header blocks. -/
def decodeBlocks (hpack : Http2HpackDecoder P) (blocks : List HeaderBlock) : Http2HpackDecoder P :=
  blocks.foldl (fun hpack block => (hpack.decode block.bytes).2) hpack

variable (hpack : Http2HpackDecoder P) (dir : Http2Direction P)

theorem blockItems_append (blocks more : List HeaderBlock) :
    blockItems hpack (blocks ++ more) =
      blockItems hpack blocks ++ blockItems (decodeBlocks hpack blocks) more := by
  induction blocks generalizing hpack with
  | nil => rfl
  | cons block blocks induction =>
    rw [List.cons_append, blockItems, blockItems, induction, List.append_assoc]
    rfl

theorem decodeBlocks_append (blocks more : List HeaderBlock) :
    decodeBlocks hpack (blocks ++ more) = decodeBlocks (decodeBlocks hpack blocks) more :=
  List.foldl_append

theorem finishBlock_eq (block : HeaderBlock) :
    dir.finishBlock block =
      ({ dir with hpack := (dir.hpack.decode block.bytes).2 },
        (blockItem dir.hpack block).toList) := by
  unfold finishBlock blockItem
  rcases dir.hpack.decode block.bytes with ⟨_ | fields, hpack⟩
  · cases block.promise <;> rfl
  · cases block.promise <;> rfl

theorem isHeaders_blockItem {hpack : Http2HpackDecoder P} {block : HeaderBlock} {item : H2Item}
    (emitted : item ∈ (blockItem hpack block).toList) : item.isHeaders = true := by
  unfold blockItem at emitted
  split at emitted
  · cases emitted
  · obtain ⟨fields, -, rfl⟩ := Option.map_eq_some_iff.mp (Option.mem_toList.mp emitted)
    rfl

theorem filter_blockItem (block : HeaderBlock) :
    (blockItem hpack block).toList.filter H2Item.isHeaders = (blockItem hpack block).toList :=
  List.filter_eq_self.mpr fun _ emitted => isHeaders_blockItem emitted

/-! ## What a frame brings -/

/-- A direction reads the `blocks` when it comes to `after` and emits `items`: HPACK has decoded
them in this order, and the `Headers` items are theirs. -/
structure Reads (dir after : Http2Direction P) (items : List H2Item) (blocks : List HeaderBlock) :
    Prop where
  hpack : after.hpack = decodeBlocks dir.hpack blocks
  headers : items.filter H2Item.isHeaders = blockItems dir.hpack blocks

theorem Reads.nothing {dir after : Http2Direction P} {items : List H2Item}
    (hpack : after.hpack = dir.hpack) (headers : items.filter H2Item.isHeaders = []) :
    Reads dir after items [] := ⟨hpack, headers⟩

theorem Reads.trans {dir middle after : Http2Direction P} {items later : List H2Item}
    {blocks more : List HeaderBlock} (first : Reads dir middle items blocks)
    (second : Reads middle after later more) : Reads dir after (items ++ later) (blocks ++ more) where
  hpack := by rw [second.hpack, first.hpack, decodeBlocks_append]
  headers := by
    rw [List.filter_append, first.headers, second.headers, first.hpack, blockItems_append]

theorem reads_openBlock (flags : UInt8) (block : HeaderBlock) :
    Reads dir (dir.openBlock flags block).1 (dir.openBlock flags block).2
      (endedBlock flags block).toList := by
  unfold openBlock endedBlock
  split
  · rw [finishBlock_eq]
    refine ⟨rfl, ?_⟩
    rw [filter_blockItem]
    exact (List.append_nil _).symm
  · exact .nothing rfl rfl

theorem reads_onFrame (ftype flags : UInt8) (streamId : UInt32) (payload : Bytes) :
    Reads dir (dir.onFrame ftype flags streamId payload).1
      (dir.onFrame ftype flags streamId payload).2
      (dir.completedBlock ftype flags streamId payload).toList := by
  unfold onFrame completedBlock
  cases dir.continuation with
  | some pending =>
    dsimp only [onContinuation]
    split
    · exact .nothing rfl rfl
    · split
      · exact .nothing rfl rfl
      · exact ⟨(reads_openBlock _ _ _).hpack, (reads_openBlock _ _ _).headers⟩
  | none =>
    dsimp only
    by_cases data : ftype = 0x00
    · subst data
      rw [if_pos rfl, if_neg (show ¬ (0x00 : UInt8) = 0x01 by decide),
        if_neg (show ¬ (0x00 : UInt8) = 0x05 by decide)]
      split
      · exact .nothing rfl rfl
      · cases unpad flags payload <;> exact .nothing rfl rfl
    · rw [if_neg data]
      by_cases headers : ftype = 0x01
      · rw [if_pos headers, if_pos headers]
        unfold onHeaders
        split
        · exact .nothing rfl rfl
        · cases (unpad flags payload).bind (dropPriority flags) with
          | none => exact .nothing rfl rfl
          | some frag =>
            dsimp only [Option.bind_some]
            split
            · exact .nothing rfl rfl
            · exact reads_openBlock _ _ _
      · rw [if_neg headers, if_neg headers]
        by_cases promise : ftype = 0x05
        · subst promise
          rw [if_neg (by decide), if_neg (by decide), if_pos rfl, if_pos rfl]
          unfold onPushPromise
          cases unpad flags payload with
          | none => exact .nothing rfl rfl
          | some frag =>
            dsimp only [Option.bind_some]
            split
            · exact .nothing rfl rfl
            · exact reads_openBlock _ _ _
        · rw [if_neg promise, if_neg promise]
          split_ifs <;> exact .nothing rfl rfl

/-! ## What a run of a direction brings -/

theorem reads_frames (fuel : Nat) (dir : Http2Direction P) (rest : Bytes) :
    Reads dir (dir.frames fuel rest).1 (dir.frames fuel rest).2 (dir.handedBlocks fuel rest) := by
  induction fuel generalizing dir rest with
  | zero => exact .nothing rfl rfl
  | succ fuel induction =>
    unfold frames handedBlocks
    dsimp only
    split
    · exact .nothing rfl rfl
    · split
      · exact .nothing rfl rfl
      · split
        · exact .nothing rfl rfl
        · have frame := reads_onFrame dir (rest.getD 3 0) (rest.getD 4 0)
            (streamIdOf ((rest.drop 5).take 4)) ((rest.drop 9).take (frameLength rest))
          split
          · rw [List.append_nil]
            exact frame
          · exact frame.trans (induction _ _)

theorem reads_feed (data : Bytes) :
    Reads dir (dir.feed data).1 (dir.feed data).2 (dir.fedBlocks data) := by
  unfold feed fedBlocks
  dsimp only
  split
  · exact .nothing rfl rfl
  · split
    · exact reads_frames _ _ _
    · split
      · split
        · obtain ⟨hpack, headers⟩ := reads_frames
            ((dir.buf ++ data).drop http2ConnectionPreface.length).length
            { dir with prefaceDone := true }
            ((dir.buf ++ data).drop http2ConnectionPreface.length)
          exact ⟨hpack, headers⟩
        · exact .nothing rfl rfl
      · split <;> exact .nothing rfl rfl

/-- A run of a direction: its state, the items it emits and the header blocks HPACK is given. -/
def calls (dir : Http2Direction P) :
    List DirectionCall → Http2Direction P × List H2Item × List HeaderBlock
  | [] => (dir, [], [])
  | .feed data :: run =>
    let rest := (dir.feed data).1.calls run
    (rest.1, (dir.feed data).2 ++ rest.2.1, dir.fedBlocks data ++ rest.2.2)
  | .setMaxFrame size :: run => (dir.setMaxFrame size).calls run

theorem reads_calls (run : List DirectionCall) :
    Reads dir (dir.calls run).1 (dir.calls run).2.1 (dir.calls run).2.2 := by
  induction run generalizing dir with
  | nil => exact .nothing rfl rfl
  | cons call run induction =>
    cases call with
    | feed data => exact (reads_feed dir data).trans (induction _)
    | setMaxFrame size =>
      obtain ⟨hpack, headers⟩ := induction (dir.setMaxFrame size)
      exact ⟨hpack, headers⟩

/-! ## Blocks after a failure -/

/-- No block emits anything in its turn: it belongs to a promise or cannot be decoded. -/
def Silent : Http2HpackDecoder P → List HeaderBlock → Prop
  | _, [] => True
  | hpack, block :: blocks =>
    (block.promise = true ∨ hpack.Fails block.bytes) ∧ Silent (hpack.decode block.bytes).2 blocks

theorem blockItem_eq_none_iff (block : HeaderBlock) :
    blockItem hpack block = none ↔ block.promise = true ∨ hpack.Fails block.bytes := by
  rw [← Http2HpackDecoder.decode_eq_none_iff]
  unfold blockItem
  cases block.promise <;> simp

theorem blockItems_eq_nil_iff (blocks : List HeaderBlock) :
    blockItems hpack blocks = [] ↔ Silent hpack blocks := by
  induction blocks generalizing hpack with
  | nil => exact iff_of_true rfl trivial
  | cons block blocks induction =>
    rw [blockItems, List.append_eq_nil_iff, Option.toList_eq_nil_iff, blockItem_eq_none_iff,
      induction, Silent]

/-- After a block that cannot be decoded a direction emits no headers exactly if the later blocks
all belong to promises or cannot be decoded either. -/
theorem headers_stop_iff_silent (dir : Http2Direction P) (run : List DirectionCall)
    {before after : List HeaderBlock} {failed : HeaderBlock}
    (handed : (dir.calls run).2.2 = before ++ failed :: after)
    (fails : (decodeBlocks dir.hpack before).Fails failed.bytes) :
    (dir.calls run).2.1.filter H2Item.isHeaders = blockItems dir.hpack before ↔
      Silent (decodeBlocks dir.hpack (before ++ [failed])) after := by
  have silent : blockItem (decodeBlocks dir.hpack before) failed = none :=
    (blockItem_eq_none_iff _ _).mpr (.inr fails)
  have split : (dir.calls run).2.1.filter H2Item.isHeaders =
      blockItems dir.hpack before ++
        blockItems (decodeBlocks dir.hpack (before ++ [failed])) after := by
    rw [(reads_calls dir run).headers, handed, blockItems_append, blockItems, silent,
      decodeBlocks_append]
    rfl
  rw [split, List.append_right_eq_self, blockItems_eq_nil_iff]

/-- A HEADERS frame on stream 1 whose block breaks off inside an integer. -/
def cutOffHeaders : Bytes := [0, 0, 1, 1, 4, 0, 0, 0, 1, 0xFF]

/-- A PUSH_PROMISE frame on stream 1. -/
def promisedHeaders : Bytes := [0, 0, 6, 5, 4, 0, 0, 0, 1, 0, 0, 0, 2, 0x82, 0x84]

/-- The HEADERS frame of a request on stream 3. -/
def requestHeaders : Bytes := [0, 0, 2, 1, 5, 0, 0, 0, 3, 0x82, 0x84]

def cutOffBlock : HeaderBlock := ⟨1, [0xFF], false, false⟩

theorem headers_stop_iff_silent_promise :
    let dir : Http2Direction asciiPlatform := new false
    let run := [.feed (cutOffHeaders ++ promisedHeaders)]
    (dir.calls run).2.1.filter H2Item.isHeaders = blockItems dir.hpack [] :=
  (headers_stop_iff_silent (P := asciiPlatform) (new false)
    [.feed (cutOffHeaders ++ promisedHeaders)]
    (show _ = [] ++ cutOffBlock :: [⟨1, [0x82, 0x84], false, true⟩] by decide +kernel)
    (by decide +kernel)).mpr ⟨.inl rfl, trivial⟩

/-- Three blocks fail, which resets the table; the next one is reported all the same. -/
theorem headers_after_failed_blocks :
    let dir : Http2Direction asciiPlatform := new false
    let run := [.feed (cutOffHeaders ++ cutOffHeaders ++ cutOffHeaders ++ requestHeaders)]
    (dir.calls run).2.2 =
        [] ++ cutOffBlock :: [cutOffBlock, cutOffBlock, ⟨3, [0x82, 0x84], true, false⟩] ∧
      dir.hpack.Fails cutOffBlock.bytes ∧
      (dir.calls run).2.1 = [.headers 3 (blockHeaders
        [(bytes ":method", bytes "GET"), (bytes ":path", bytes "/")]) true] ∧
      (dir.calls run).2.1.filter H2Item.isHeaders ≠ blockItems dir.hpack [] := by
  decide +kernel

end Http2Direction

end ApiSensor
