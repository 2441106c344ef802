/-
  Blocks of any size.

  Frames are rendered one after the other, and a frame knows of those before it nothing but
  what they have made of the renderer.  So it cannot be heard where one block ends and the
  next one begins, as long as the cut falls between two frames and no call comes in there.
  And since every sample is written over, it makes no difference what a block held before.
-/
import Chiptune.Proofs.TableOutline
import Mathlib.Algebra.Ring.Nat

set_option autoImplicit false

namespace Chiptune.Renderer

/-! ## Writing over a frame -/

/-- What a frame becomes depends on its length and not on what its places hold. -/
theorem writeFrame_congr (sum : Stereo) {frame other : List Float32}
    (h : frame.length = other.length) : writeFrame sum frame = writeFrame sum other := by
  match frame, other, h with
  | [], [], _ => rfl
  | [_], [_], _ => rfl
  | _ :: _ :: first, _ :: _ :: second, h =>
    have hothers : first.length = second.length := by simpa using h
    simp only [writeFrame, List.map_const', hothers]

@[simp] theorem length_writeFrame (sum : Stereo) (frame : List Float32) :
    (writeFrame sum frame).length = frame.length := by
  match frame with
  | [] => rfl
  | [_] => rfl
  | _ :: _ :: others => simp [writeFrame]

/-! ## Cutting a block into frames -/

variable {channels : Nat}

/-- Whole frames in front of a block are frames of it. -/
theorem frameSizes_add (h : 0 < channels) (count samples : Nat) :
    frameSizes (count * channels + samples) channels =
      List.replicate count channels ++ frameSizes samples channels := by
  have hmax : max channels 1 = channels := Nat.max_eq_left h
  have hwhole : (count * channels + samples) / channels = count + samples / channels := by
    rw [Nat.add_comm, Nat.add_mul_div_right _ _ h, Nat.add_comm]
  have hrest : (count * channels + samples) % channels = samples % channels :=
    Nat.mul_add_mod_self_right ..
  simp only [frameSizes, hmax, hwhole, hrest, ← List.replicate_append_replicate,
    List.append_assoc]

/-- The frames make up the block. -/
theorem sum_frameSizes (samples channels : Nat) : (frameSizes samples channels).sum = samples := by
  have hparts := Nat.div_add_mod' samples (max channels 1)
  simp only [frameSizes, List.sum_append, List.sum_replicate_nat]
  split <;> simp only [List.sum_nil, List.sum_singleton] <;> omega

/-- There are as many frames as there are channels in the samples, the last one counted when it
is not full. -/
theorem length_frameSizes (h : 0 < channels) (samples : Nat) :
    (frameSizes samples channels).length = (samples + channels - 1) / channels := by
  have hmax : max channels 1 = channels := Nat.max_eq_left h
  have hparts := Nat.div_add_mod' samples channels
  have hrest := Nat.mod_lt samples h
  simp only [frameSizes, hmax, List.length_append, List.length_replicate]
  symm
  split
  · refine Nat.div_eq_of_lt_le ?_ ?_ <;> simp [Nat.add_mul] <;> omega
  · refine Nat.div_eq_of_lt_le ?_ ?_ <;> simp [Nat.add_mul] <;> omega

/-- Frames that make up the first part of a block are cut from this part. -/
theorem cut_append (sizes others : List Nat) {first : List Float32} (second : List Float32)
    (h : sizes.sum = first.length) :
    cut (sizes ++ others) (first ++ second) = cut sizes first ++ cut others second := by
  induction sizes generalizing first with
  | nil =>
    obtain rfl := List.eq_nil_of_length_eq_zero h.symm
    rfl
  | cons size sizes ih =>
    rw [List.sum_cons] at h
    have hrest : sizes.sum = (first.drop size).length := by rw [List.length_drop]; omega
    rw [List.cons_append, cut, cut, List.take_append_of_le_length (by omega),
      List.drop_append_of_le_length (by omega), ih hrest, List.cons_append]

/-- The frames of a block have the lengths that are asked for. -/
theorem lengths_cut {sizes : List Nat} {block : List Float32} (h : sizes.sum = block.length) :
    (cut sizes block).map List.length = sizes := by
  induction sizes generalizing block with
  | nil => rfl
  | cons size sizes ih =>
    rw [List.sum_cons] at h
    have hrest : sizes.sum = (block.drop size).length := by rw [List.length_drop]; omega
    rw [cut, List.map_cons, ih hrest, List.length_take, Nat.min_eq_left (by omega)]

/-! ## Frame after frame -/

/-- What is heard in the frame that comes next. -/
def heard (renderer : Renderer) : Stereo :=
  (sampleNodes renderer.nodes (renderer.timeOf renderer.frames).toFloat renderer.nodes
    ⟨0, 0⟩).1

/-- The renderer behind this frame. -/
def advanced (renderer : Renderer) : Renderer :=
  { renderer with
    nodes := (sampleNodes renderer.nodes (renderer.timeOf renderer.frames).toFloat
      renderer.nodes ⟨0, 0⟩).2
    frames := renderer.frames + 1 }

theorem renderFrame_eq (done : Array Float32 × Renderer) (frame : List Float32) :
    renderFrame done frame = (done.1 ++ writeFrame done.2.heard frame, done.2.advanced) := rfl

/-- The samples that are done stay as they are and have no part in those that follow. -/
theorem foldl_renderFrame (frames : List (List Float32)) (samples : Array Float32)
    (renderer : Renderer) :
    frames.foldl renderFrame (samples, renderer) =
      (samples ++ (frames.foldl renderFrame (#[], renderer)).1,
        (frames.foldl renderFrame (#[], renderer)).2) := by
  induction frames generalizing samples renderer with
  | nil => simp
  | cons frame frames ih =>
    have hframe : samples ++ writeFrame renderer.heard frame =
        samples ++ (#[] ++ writeFrame renderer.heard frame) :=
      Array.toList_inj.1 (by rw [Array.toList_append, Array.toList_appendList,
        Array.toList_appendList, List.nil_append])
    simp only [List.foldl_cons, renderFrame_eq]
    rw [ih, ih (#[] ++ writeFrame renderer.heard frame), hframe, Array.append_assoc]

/-- Frames of the same lengths are rendered alike. -/
theorem foldl_renderFrame_congr {frames others : List (List Float32)}
    (h : frames.map List.length = others.map List.length) (done : Array Float32 × Renderer) :
    frames.foldl renderFrame done = others.foldl renderFrame done := by
  induction frames generalizing others done with
  | nil =>
    obtain rfl := List.map_eq_nil_iff.1 h.symm
    rfl
  | cons frame frames ih =>
    obtain ⟨other, others, rfl, hfirst, hothers⟩ := List.map_eq_cons_iff.1 h.symm
    rw [List.foldl_cons, List.foldl_cons, renderFrame_eq, renderFrame_eq,
      writeFrame_congr _ hfirst, ih hothers.symm]

/-- The clock counts the frames. -/
theorem frames_foldl_renderFrame (frames : List (List Float32))
    (done : Array Float32 × Renderer) :
    (frames.foldl renderFrame done).2.frames = done.2.frames + UInt64.ofNat frames.length := by
  induction frames generalizing done with
  | nil => simp
  | cons frame frames ih =>
    have hone : (renderFrame done frame).2.frames = done.2.frames + 1 := rfl
    rw [List.foldl_cons, ih, hone, List.length_cons, Nat.add_comm, UInt64.ofNat_add,
      UInt64.add_assoc]
    rfl

/-- There are as many samples as the frames had places. -/
theorem size_foldl_renderFrame (frames : List (List Float32))
    (done : Array Float32 × Renderer) :
    (frames.foldl renderFrame done).1.size =
      done.1.size + (frames.map List.length).sum := by
  induction frames generalizing done with
  | nil => simp
  | cons frame frames ih =>
    have hone : (renderFrame done frame).1.size = done.1.size + frame.length := by
      simp [renderFrame_eq, ← Array.length_toList]
    rw [List.foldl_cons, ih, List.map_cons, List.sum_cons, hone, Nat.add_assoc]

/-! ## Block after block -/

variable {renderer : Renderer}

/-- The frames of a block. -/
def framesOf (channels : Nat) (block : Array Float32) : List (List Float32) :=
  cut (frameSizes block.size channels) block.toList

theorem lengths_framesOf (channels : Nat) (block : Array Float32) :
    (framesOf channels block).map List.length = frameSizes block.size channels :=
  lengths_cut (sum_frameSizes block.size channels)

/-- Blocks of one length have frames of the same lengths. -/
theorem renderOver_congr (channels : Nat) (renderer : Renderer) {block other : Array Float32}
    (h : block.size = other.size) :
    renderer.renderOver block channels = renderer.renderOver other channels :=
  foldl_renderFrame_congr ((lengths_framesOf channels block).trans
    ((congrArg (frameSizes · channels) h).trans (lengths_framesOf channels other).symm)) _

/-- The frames of a block behind whole frames are those of the two parts. -/
theorem framesOf_append (h : 0 < channels) {count : Nat} {first : Array Float32}
    (hfirst : first.size = count * channels) (second : Array Float32) :
    framesOf channels (first ++ second) = framesOf channels first ++ framesOf channels second := by
  have hwhole : frameSizes first.size channels = List.replicate count channels := by
    have hnone : frameSizes 0 channels = [] := by simp [frameSizes]
    simpa [hfirst, hnone] using frameSizes_add h count 0
  rw [framesOf, Array.size_append, hfirst, frameSizes_add h, ← hwhole, Array.toList_append,
    cut_append _ _ _ ((sum_frameSizes _ _).trans Array.length_toList.symm)]
  rfl

/-- Where no calls wait, none are carried out. -/
theorem applyQueue_of_nil (h : renderer.queue = []) : renderer.applyQueue = renderer := by
  obtain ⟨nodes, queue, frames, rate⟩ := renderer
  obtain rfl : queue = [] := h
  rfl

/-- A block that begins with whole frames is rendered as these frames and then the others. -/
theorem renderOver_append (h : 0 < channels) {count : Nat} {first : Array Float32}
    (hfirst : first.size = count * channels) (second : Array Float32) (renderer : Renderer) :
    renderer.renderOver (first ++ second) channels =
      ((renderer.renderOver first channels).1 ++
          ((renderer.renderOver first channels).2.renderOver second channels).1,
        ((renderer.renderOver first channels).2.renderOver second channels).2) := by
  -- the calls that wait are carried out for the first block, and none wait for the second one
  have hqueue : (renderer.renderOver first channels).2.queue = [] :=
    (keeps_renderOver first channels renderer).queue
  have hsecond : (renderer.renderOver first channels).2.renderOver second channels =
      (framesOf channels second).foldl renderFrame
        (#[], (renderer.renderOver first channels).2) := by
    rw [renderOver, applyQueue_of_nil hqueue, framesOf]
  rw [hsecond, renderOver, ← framesOf, framesOf_append h hfirst, List.foldl_append]
  exact foldl_renderFrame _ _ _

/-- What cannot be heard of the blocks in which samples are wanted. -/
structure Seamless (channels : Nat) (renderer : Renderer) : Prop where
  /-- Two blocks of whole frames, between which no call comes in, give the samples of one block,
  and leave behind what this one leaves: nodes with their oscillators, queue and clock. -/
  joined : ∀ (n m : Nat) (whole first second : Array Float32),
    whole.size = (n + m) * channels → first.size = n * channels → second.size = m * channels →
      let (front, between) := renderer.renderOver first channels
      let (back, after) := between.renderOver second channels
      renderer.renderOver whole channels = (front ++ back, after)
  /-- It makes no difference what a block held. -/
  overwritten : ∀ block other : Array Float32, block.size = other.size →
    renderer.renderOver block channels = renderer.renderOver other channels
  full : ∀ block : Array Float32, (renderer.renderOver block channels).1.size = block.size
  /-- The clock counts the frames of a block, the last one as well if it is not full. -/
  clock : ∀ block : Array Float32, (renderer.renderOver block channels).2.frames =
    renderer.frames + UInt64.ofNat ((block.size + channels - 1) / channels)

/-- **The size of blocks is not heard.**  This holds of a renderer in any state: whatever its
nodes are and in whatever order they stand, which is the order in which oscillators are summed,
and whatever calls wait. -/
theorem seamless (renderer : Renderer) (channels : Nat) (h : 0 < channels) :
    Seamless channels renderer where
  joined n m whole first second hwhole hfirst hsecond := by
    have hsize : whole.size = (first ++ second).size := by
      rw [hwhole, Array.size_append, hfirst, hsecond, Nat.add_mul]
    exact (renderOver_congr channels renderer hsize).trans
      (renderOver_append h hfirst second renderer)
  overwritten _ _ := renderOver_congr channels renderer
  full block := by
    rw [renderOver, ← framesOf, size_foldl_renderFrame, lengths_framesOf, sum_frameSizes]
    exact Nat.zero_add _
  clock block := by
    have hcount := congrArg List.length (lengths_framesOf channels block)
    rw [List.length_map, length_frameSizes h] at hcount
    rw [renderOver, ← framesOf, frames_foldl_renderFrame, hcount]
    rfl

/-- A voice whose calls still wait: 1000 frames in a second, and a tone of 100 Hz from the
beginning. -/
def squareVoice : Renderer :=
  { silent (Float.ofNat 1000) 0 with
    queue := [.newOscillator 1 .square, .wire 1 destination, .signal (.start 1 0),
      .signal (.tune 1 100 0)] }

/-- The voice on two channels.  Three samples are two frames, and the second one has a single
place. -/
theorem seamless_squareVoice :
    0 < 2 ∧ Seamless 2 squareVoice ∧
      (squareVoice.renderOver #[9, 9, 9] 2).2.frames = 2 :=
  ⟨by decide, seamless squareVoice 2 (by decide), by decide +kernel⟩

end Chiptune.Renderer
