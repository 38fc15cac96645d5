import Emme.Lib.Execution
import Emme.Lib.Recurrence
import Mathlib.Data.UInt

/-!
# Random words

Model of the generator of `src/uuid.c`: a table of 624 words, an index and a flag. An access outside
of the table makes the model fail with `none`. The table holds successive windows of the sequence of
MT19937 (`refill_window`); a word that is returned is the tempering of one of its elements
(`random_words_mt19937`).
-/

namespace Emme.Uuid

open Execution Recurrence

/-- `random_state`. -/
abbrev Words := Vector UInt32 624

/-- The three static variables. -/
structure RandomState where
  initialized : Bool
  words : Words
  index : Nat
  deriving DecidableEq

/-- Their values when the program starts. -/
def programStart : RandomState where
  initialized := false
  words := Vector.replicate 624 0
  index := 625

/-- An assignment to an element of `random_state`. -/
def storeWord (words : Words) (i : Nat) (value : UInt32) : Option Words :=
  if h : i < 624 then some (words.set i value h) else none

/-! ## The functions of the source -/

/-- What `init_random_state` reads: the time of day and the process. -/
structure Seed where
  sec : Int
  usec : Int
  pid : Int
  deriving DecidableEq, Repr

/-- The body of the loop of `init_random_state`. -/
def seedStep (words : Words) (i : Nat) : Option Words := do
  let last ← words[i - 1]?
  storeWord words i ((1812433253 : UInt32) * (last ^^^ (last >>> 30)) + UInt32.ofNat i)

/-- What `init_random_state` makes of the time and the process. -/
def Seed.word (seed : Seed) : UInt32 :=
  UInt32.ofInt seed.sec ^^^ UInt32.ofInt seed.usec ^^^ UInt32.ofInt seed.pid

/-- `init_random_state`. -/
def initRandomState (seed : Seed) (state : RandomState) : Option RandomState := do
  let words ← storeWord state.words 0 seed.word
  let words ← run seedStep words (List.range' 1 623)
  return { initialized := true, words, index := 624 }

/-- The body of the loops of `generate_random`: the word at `i` is replaced, from itself, the word
at `next` and the word at `source`. -/
def twistStep (words : Words) (i next source : Nat) : Option Words := do
  let current ← words[i]?
  let following ← words[next]?
  let y := (current &&& 0x80000000) + (following &&& 0x7fffffff)
  let other ← words[source]?
  let words ← storeWord words i (other ^^^ (y >>> 1))
  if y &&& 1 ≠ 0 then do
    let value ← words[i]?
    storeWord words i (value ^^^ 0x9908b0df)
  else return words

/-- The part of `generate_random` that replaces all words. -/
def refill (words : Words) : Option Words := do
  let words ← run (fun words i => twistStep words i (i + 1) (i + 397)) words (List.range' 0 227)
  let words ← run (fun words i => twistStep words i (i + 1) (i - 227)) words (List.range' 227 396)
  twistStep words 623 0 396

/-- The last part of `generate_random`. -/
def temper (y : UInt32) : UInt32 :=
  let y := y ^^^ (y >>> 11)
  let y := y ^^^ ((y <<< 7) &&& 0x9d2c5680)
  let y := y ^^^ ((y <<< 15) &&& 0xefc60000)
  y ^^^ (y >>> 18)

/-- `generate_random`. -/
def generateRandom (state : RandomState) : Option (UInt32 × RandomState) := do
  let state ←
    if 624 ≤ state.index then do
      let words ← refill state.words
      some { state with words, index := 0 }
    else some state
  let y ← state.words[state.index]?
  return (temper y, { state with index := state.index + 1 })

/-- The test at the start of `get_random_uint`. -/
def ensureInitialized (seed : Seed) (state : RandomState) : Option RandomState :=
  if !state.initialized then initRandomState seed state else some state

/-- `get_random_uint`. -/
def getRandomUint (seed : Seed) (state : RandomState) : Option (UInt32 × RandomState) := do
  let state ← ensureInitialized seed state
  generateRandom state

/-- Calls of `get_random_uint` one after another, each with the time and the process that it would
read: the words they return, and the state afterwards. -/
def randomUints : RandomState → List Seed → Option (List UInt32 × RandomState)
  | state, [] => some ([], state)
  | state, seed :: seeds => do
      let (value, state) ← getRandomUint seed state
      let (values, state) ← randomUints state seeds
      return (value :: values, state)

/-- The next `k` words of `generate_random`, and the state afterwards. -/
def draws : Nat → RandomState → Option (List UInt32 × RandomState)
  | 0, state => some ([], state)
  | k + 1, state => do
      let (value, state) ← generateRandom state
      let (values, state) ← draws k state
      return (value :: values, state)

/-! ## MT19937 -/

/-- A word with its own bits, `count` places to the right, added to it. -/
def addShiftedRight (count y : UInt32) : UInt32 := y ^^^ (y >>> count)

/-- A word with those of its own bits, `count` places to the left, added to it that the mask
selects. -/
def addShiftedLeft (count mask y : UInt32) : UInt32 := y ^^^ ((y <<< count) &&& mask)

/-- The tempering of MT19937, with its parameters `u`, `s`, `b`, `t`, `c` and `l`. -/
def mtTempering : UInt32 → UInt32 :=
  addShiftedRight 18 ∘ addShiftedLeft 15 0xefc60000 ∘ addShiftedLeft 7 0x9d2c5680 ∘
    addShiftedRight 11

/-- The first words of MT19937 for a seed; only the first 624 of them are used. -/
def mtSeeded (seed : UInt32) : Nat → UInt32
  | 0 => seed
  | i + 1 => 1812433253 * addShiftedRight 30 (mtSeeded seed i) + UInt32.ofNat (i + 1)

/-- The twist of the concatenation of the top bit of one word and the low 31 bits of another. -/
def twist (top low : UInt32) : UInt32 :=
  let y := (top &&& 0x80000000) ||| (low &&& 0x7fffffff)
  (y >>> 1) ^^^ (if y &&& 1 = 0 then 0 else 0x9908b0df)

/-- `x (j + 624) = x (j + 397) ^ twist (x j) (x (j + 1))`. -/
def mtRule : Rule UInt32 where
  lag := 624
  middle := 397
  combine current following other := other ^^^ twist current following
  one_lt_lag := by decide
  middle_lt_lag := by decide

/-- The sequence that starts with these words. -/
def mtSequence (words : Words) : Nat → UInt32 := mtRule.sequence fun j => words[j]?.getD 0

/-- The sequence that MT19937 goes through for a seed. -/
def mtSeededSequence (seed : UInt32) : Nat → UInt32 := mtRule.sequence (mtSeeded seed)

-- The first word that MT19937 returns for its default seed 5489.
example : mtTempering (mtSeededSequence 5489 624) = 3499211612 := by
  rw [mtSeededSequence, show 624 = 0 + mtRule.lag from rfl, mtRule.sequence_add_lag,
    mtRule.sequence_initial _ (by decide), mtRule.sequence_initial _ (by decide),
    mtRule.sequence_initial _ (by decide)]
  decide +kernel

/-- The table holds the first words of its sequence. -/
theorem mt_sequence_initial (words : Words) {j : Nat} (h : j < 624) :
    words[j]? = some (mtSequence words j) := by
  unfold mtSequence
  rw [mtRule.sequence_initial _ h, Vector.getElem?_eq_getElem h]
  rfl

/-- The sequence goes on as the rule says. -/
theorem mt_sequence_step (words : Words) (j : Nat) :
    mtSequence words (j + 624) =
      mtSequence words (j + 397) ^^^ twist (mtSequence words j) (mtSequence words (j + 1)) :=
  mtRule.sequence_add_lag _ j

/-! ## Refilling -/

variable {i k : Nat} {words : Words} {state : RandomState} {seed : Seed}

/-- A store within the table. -/
theorem store_word_of_lt (words : Words) (h : i < 624) (value : UInt32) :
    storeWord words i value = some (words.set i value h) := dif_pos h

/-- The two parts of `y` have no bit in common. -/
theorem top_add_low (top low : UInt32) :
    (top &&& 0x80000000) + (low &&& 0x7fffffff) =
      (top &&& 0x80000000) ||| (low &&& 0x7fffffff) := by
  have hmasks : (0x80000000 : UInt32) &&& 0x7fffffff = 0 := by decide
  have hdisjoint : (top &&& 0x80000000) &&& (low &&& 0x7fffffff) = 0 := by
    rw [UInt32.and_assoc, ← UInt32.and_assoc 0x80000000, UInt32.and_comm 0x80000000 low,
      UInt32.and_assoc low, hmasks, UInt32.and_zero, UInt32.and_zero]
  apply UInt32.toBitVec_inj.mp
  rw [UInt32.toBitVec_add, UInt32.toBitVec_or]
  exact BitVec.add_eq_or_of_and_eq_zero _ _ (congrArg UInt32.toBitVec hdisjoint)

/-- The body of the loops replaces one word by the value the rule gives. -/
theorem twist_step_eq {next source : Nat} {current following other : UInt32}
    (hi : words[i]? = some current) (hnext : words[next]? = some following)
    (hsource : words[source]? = some other) (hlt : i < 624) :
    twistStep words i next source =
      some (words.set i (mtRule.combine current following other) hlt) := by
  unfold twistStep
  rw [hi, hnext, hsource]
  simp only [Option.bind_eq_bind, Option.bind_some, store_word_of_lt _ hlt, top_add_low]
  show _ = some (words.set i (other ^^^ twist current following) hlt)
  unfold twist
  dsimp only
  split
  · rename_i hodd
    rw [Vector.getElem?_set hlt, if_pos rfl, Option.bind_some, Vector.set_set, UInt32.xor_assoc]
  · rename_i heven
    rw [if_pos (not_not.mp heven), UInt32.xor_zero]
    rfl

section Window

variable {x : Nat → UInt32}

/-- The table while the window that starts at `base` is being replaced and `i` words have been. -/
def Replaced (x : Nat → UInt32) (base i : Nat) (words : Words) : Prop :=
  ∀ a, a < 624 → words[a]? = some (mtRule.cell x base i a)

/-- The table holds the window that starts at `base`. -/
def Window (x : Nat → UInt32) (base : Nat) (words : Words) : Prop :=
  ∀ a, a < 624 → words[a]? = some (x (base + a))

variable {base : Nat}

/-- Before the first word is replaced. -/
theorem Window.replaced_zero (h : Window x base words) : Replaced x base 0 words := by
  intro a ha
  rw [mtRule.cell_zero, h a ha]

/-- After the last word was replaced. -/
theorem Replaced.window (h : Replaced x base 624 words) : Window x (base + 624) words := by
  intro a ha
  rw [h a ha]
  exact congrArg some (mtRule.cell_lag x base ha)

/-- The words that the rule needs are found modulo the size of the table. -/
theorem mt_cell_add (base : Nat) (hi : i < 624) (hk : k < 624) :
    mtRule.cell x base i ((i + k) % 624) = x (base + (i + k)) :=
  mtRule.cell_add x base hi hk

variable (hx : ∀ j, x (j + 624) = x (j + 397) ^^^ twist (x j) (x (j + 1)))

include hx

/-- One word is replaced, wherever in the table the rule's words are. -/
theorem Replaced.twist_step {next source : Nat} (h : Replaced x base i words) (hi : i < 624)
    (hnext : next = (i + 1) % 624) (hsource : source = (i + 397) % 624) :
    ∃ following, twistStep words i next source = some following ∧
      Replaced x base (i + 1) following := by
  have hcurrent := h i hi
  have hfollowing := h next (hnext ▸ Nat.mod_lt _ (by decide))
  have hother := h source (hsource ▸ Nat.mod_lt _ (by decide))
  rw [mtRule.cell_self] at hcurrent
  rw [hnext, mt_cell_add base hi (by decide), ← hnext] at hfollowing
  rw [hsource, mt_cell_add base hi (by decide), ← hsource] at hother
  refine ⟨_, twist_step_eq hcurrent hfollowing hother hi, fun a ha => ?_⟩
  rw [Vector.getElem?_set hi, mtRule.cell_succ]
  split
  · have hnew := hx (base + i)
    rw [Nat.add_assoc base i 397, Nat.add_assoc base i 1] at hnew
    exact congrArg some hnew.symm
  · exact h a ha

/-- Below 227 the third word has not been replaced yet. -/
theorem Replaced.first_range (h : Replaced x base 0 words) :
    ∃ final, run (fun words i => twistStep words i (i + 1) (i + 397)) words (List.range' 0 227) =
        some final ∧ Replaced x base (0 + 227) final :=
  run_counted (fun i words _ hi hinv => hinv.twist_step hx (by omega) (by omega) (by omega)) h

/-- From there on it has been, 227 places before. -/
theorem Replaced.second_range (h : Replaced x base 227 words) :
    ∃ final, run (fun words i => twistStep words i (i + 1) (i - 227)) words (List.range' 227 396) =
        some final ∧ Replaced x base (227 + 396) final :=
  run_counted (fun i words hlow hi hinv => hinv.twist_step hx (by omega) (by omega) (by omega)) h

/-- The three ranges together replace the window by the next one. -/
theorem refill_window (h : Window x base words) :
    ∃ refilled, refill words = some refilled ∧ Window x (base + 624) refilled := by
  obtain ⟨first, hfirst, hreplaced⟩ := h.replaced_zero.first_range hx
  obtain ⟨second, hsecond, hreplaced⟩ := Replaced.second_range hx hreplaced
  -- the last word is followed by the first of the table
  obtain ⟨third, hthird, hreplaced⟩ : ∃ following, twistStep second 623 0 396 = some following ∧
      Replaced x base (623 + 1) following :=
    Replaced.twist_step hx hreplaced (by decide) (by decide) (by decide)
  refine ⟨third, ?_, hreplaced.window⟩
  unfold refill
  rw [hfirst]
  show (run _ first _ >>= fun words => twistStep words 623 0 396) = _
  rw [hsecond]
  exact hthird

/-! ## Drawing -/

omit hx in
/-- The code tempers as MT19937 does. -/
theorem temper_eq (y : UInt32) : temper y = mtTempering y := rfl

/-- The next word to be drawn is the tempering of `x (k + 624)`. -/
structure Ready (x : Nat → UInt32) (k : Nat) (state : RandomState) : Prop where
  window : ∃ base, Window x base state.words ∧ base + state.index = k + 624
  index_le : state.index ≤ 624

/-- One word is drawn. -/
theorem Ready.generate_random (h : Ready x k state) :
    ∃ following, generateRandom state = some (mtTempering (x (k + 624)), following) ∧
      Ready x (k + 1) following ∧ following.initialized = state.initialized := by
  obtain ⟨⟨base, hwindow, hbase⟩, hindex⟩ := h
  by_cases hfull : 624 ≤ state.index
  · obtain ⟨refilled, hrefill, hwindow⟩ := refill_window hx hwindow
    have hload := hwindow 0 (by decide)
    have hk : base + 624 + 0 = k + 624 := by omega
    refine ⟨{ state with words := refilled, index := 1 }, ?_, ⟨⟨base + 624, hwindow, ?_⟩, ?_⟩, rfl⟩
    · unfold generateRandom
      rw [if_pos hfull, hrefill]
      show (refilled[0]? >>= fun y => some (temper y, _)) = _
      rw [hload, hk, ← temper_eq]
      rfl
    · show base + 624 + 1 = k + 1 + 624
      omega
    · show 1 ≤ 624
      decide
  · have hload := hwindow state.index (by omega)
    rw [hbase] at hload
    refine ⟨{ state with index := state.index + 1 }, ?_, ⟨⟨base, hwindow, ?_⟩, ?_⟩, rfl⟩
    · unfold generateRandom
      rw [if_neg hfull]
      show (state.words[state.index]? >>= fun y => some (temper y, _)) = _
      rw [hload, ← temper_eq]
      rfl
    · show base + (state.index + 1) = k + 1 + 624
      omega
    · show state.index + 1 ≤ 624
      omega

/-- Any number of words are drawn. -/
theorem Ready.draws (h : Ready x k state) (n : Nat) :
    ∃ following,
      draws n state =
        some ((List.range' k n).map fun j => mtTempering (x (j + 624)), following) ∧
      Ready x (k + n) following ∧ following.initialized = state.initialized := by
  induction n generalizing k state with
  | zero => exact ⟨state, rfl, h, rfl⟩
  | succ n ih =>
      obtain ⟨following, hgenerate, hready, hflag⟩ := h.generate_random hx
      obtain ⟨final, hdraws, hfinal, hflag'⟩ := ih hready
      refine ⟨final, ?_, by rwa [Nat.add_right_comm] at hfinal, hflag'.trans hflag⟩
      unfold Uuid.draws
      rw [hgenerate]
      show (Uuid.draws n following >>= fun drawn => some (_ :: drawn.1, drawn.2)) = _
      rw [hdraws]
      rfl

end Window

/-- A state about to be refilled is at the start of the sequence of its words. -/
theorem ready_of_full (flag : Bool) (words : Words) :
    Ready (mtSequence words) 0 { initialized := flag, words, index := 624 } := by
  refine ⟨⟨0, fun a ha => ?_, rfl⟩, Nat.le_refl 624⟩
  rw [Nat.zero_add]
  exact mt_sequence_initial words ha

/-! ## Initialisation -/

/-- The words below `i` are the seeded ones. -/
def Seeded (seed : UInt32) (i : Nat) (words : Words) : Prop :=
  ∀ a < i, words[a]? = some (mtSeeded seed a)

/-- One more word is seeded. -/
theorem Seeded.seed_step {seed : UInt32} (h : Seeded seed i words) (hpos : 1 ≤ i) (hlt : i < 624) :
    ∃ following, seedStep words i = some following ∧ Seeded seed (i + 1) following := by
  obtain ⟨j, rfl⟩ := Nat.exists_eq_add_of_le' hpos
  have hlast : words[j]? = some (mtSeeded seed j) := h j (Nat.lt_succ_self j)
  refine ⟨words.set (j + 1) (mtSeeded seed (j + 1)) hlt, ?_, fun a ha => ?_⟩
  · unfold seedStep
    rw [Nat.add_sub_cancel, hlast, Option.bind_eq_bind, Option.bind_some, store_word_of_lt _ hlt]
    rfl
  · rw [Vector.getElem?_set hlt]
    split
    · rename_i heq
      rw [heq]
    · exact h a (by omega)

/-- Seeding stays within the table, and leaves the seeded words in it. -/
theorem init_random_state_eq (seed : Seed) (state : RandomState) :
    ∃ words, initRandomState seed state = some { initialized := true, words, index := 624 } ∧
      Seeded seed.word 624 words := by
  have hfirst : Seeded seed.word 1 (state.words.set 0 seed.word (by decide)) := by
    intro a ha
    obtain rfl : a = 0 := by omega
    rw [Vector.getElem?_set (by decide), if_pos rfl]
    rfl
  have hstep (i : Nat) (words : Words) (hlow : 1 ≤ i) (hhigh : i < 1 + 623)
      (hwords : Seeded seed.word i words) := hwords.seed_step hlow (by omega)
  obtain ⟨words, hrun, hseeded⟩ := run_counted hstep hfirst
  refine ⟨words, ?_, hseeded⟩
  unfold initRandomState
  rw [store_word_of_lt _ (by decide), Option.bind_eq_bind, Option.bind_some, hrun]
  rfl

/-- A state that has just been seeded is at the start of its sequence. -/
theorem Seeded.ready {seed : UInt32} (h : Seeded seed 624 words) :
    Ready (mtSeededSequence seed) 0 { initialized := true, words, index := 624 } := by
  refine ⟨⟨0, fun a ha => ?_, rfl⟩, Nat.le_refl 624⟩
  rw [Nat.zero_add, mtSeededSequence, mtRule.sequence_initial _ ha]
  exact h a ha

/-- The state has been seeded with this word, and `k` words have been drawn since. -/
structure Drawn (seed : UInt32) (k : Nat) (state : RandomState) : Prop where
  flag : state.initialized = true
  ready : Ready (mtSeededSequence seed) k state

/-- The state has been seeded, and any number of words may have been drawn since. -/
def Initialized (state : RandomState) : Prop := ∃ seed k, Drawn seed k state

/-- The state is that of the program's start, or has been seeded. -/
def StartedOrInitialized (state : RandomState) : Prop :=
  state = programStart ∨ Initialized state

/-- A state that has been seeded is used as it is. -/
theorem Drawn.ensure {word : UInt32} (h : Drawn word k state) (seed : Seed) :
    ensureInitialized seed state = some state := by
  unfold ensureInitialized
  rw [h.flag]
  rfl

/-- The state of the program's start is seeded first. -/
theorem program_start_ensure (seed : Seed) :
    ∃ ready, ensureInitialized seed programStart = some ready ∧ Drawn seed.word 0 ready := by
  obtain ⟨words, hinit, hseeded⟩ := init_random_state_eq seed programStart
  exact ⟨_, hinit, rfl, hseeded.ready⟩

/-- `get_random_uint` seeds the state of the program's start before it calls `generate_random`. -/
theorem StartedOrInitialized.ensure (h : StartedOrInitialized state) (seed : Seed) :
    ∃ ready, ensureInitialized seed state = some ready ∧ Initialized ready := by
  rcases h with rfl | ⟨word, k, hdrawn⟩
  · obtain ⟨ready, hready, hdrawn⟩ := program_start_ensure seed
    exact ⟨ready, hready, seed.word, 0, hdrawn⟩
  · exact ⟨state, hdrawn.ensure seed, word, k, hdrawn⟩

/-- The next word of the sequence is drawn. -/
theorem Drawn.generate_random {word : UInt32} (h : Drawn word k state) :
    ∃ following,
      generateRandom state = some (mtTempering (mtSeededSequence word (k + 624)), following) ∧
      Drawn word (k + 1) following := by
  obtain ⟨following, hgenerate, hready, hflag⟩ :=
    h.ready.generate_random fun j => mtRule.sequence_add_lag _ j
  exact ⟨following, hgenerate, hflag.trans h.flag, hready⟩

/-- `get_random_uint` from a state that it seeds or takes as it is. -/
theorem get_random_uint_ensured {word : UInt32} {ready : RandomState}
    (hensure : ensureInitialized seed state = some ready) (h : Drawn word k ready) :
    ∃ following,
      getRandomUint seed state =
        some (mtTempering (mtSeededSequence word (k + 624)), following) ∧
      Drawn word (k + 1) following := by
  obtain ⟨following, hgenerate, hdrawn⟩ := h.generate_random
  refine ⟨following, ?_, hdrawn⟩
  unfold getRandomUint
  rw [hensure, Option.bind_eq_bind, Option.bind_some, hgenerate]

/-- `get_random_uint` returns a word in every state that it can be called in. -/
theorem StartedOrInitialized.get_random_uint (h : StartedOrInitialized state) (seed : Seed) :
    ∃ value following, getRandomUint seed state = some (value, following) ∧
      StartedOrInitialized following := by
  obtain ⟨ready, hready, word, k, hdrawn⟩ := h.ensure seed
  obtain ⟨following, hget, hfollowing⟩ := get_random_uint_ensured hready hdrawn
  exact ⟨_, following, hget, Or.inr ⟨word, k + 1, hfollowing⟩⟩

/-- A call and the calls after it. -/
theorem random_uints_cons {following final : RandomState} {seeds : List Seed} {value : UInt32}
    {values : List UInt32} (hget : getRandomUint seed state = some (value, following))
    (hrest : randomUints following seeds = some (values, final)) :
    randomUints state (seed :: seeds) = some (value :: values, final) := by
  rw [randomUints, hget]
  show (randomUints following seeds >>= fun rest => some (value :: rest.1, rest.2)) = _
  rw [hrest]
  rfl

/-- Successive calls return successive words of the sequence. -/
theorem Drawn.random_uints {word : UInt32} (h : Drawn word k state) (seeds : List Seed) :
    ∃ following,
      randomUints state seeds = some ((List.range' k seeds.length).map fun j =>
        mtTempering (mtSeededSequence word (j + 624)), following) := by
  induction seeds generalizing k state with
  | nil => exact ⟨state, rfl⟩
  | cons seed seeds ih =>
      obtain ⟨following, hget, hdrawn⟩ := get_random_uint_ensured (h.ensure seed) h
      obtain ⟨final, hrest⟩ := ih hdrawn
      exact ⟨final, random_uints_cons hget hrest⟩

/-- From the program's start they are the words of the sequence that the first call seeds. -/
theorem random_uints_start (seed : Seed) (seeds : List Seed) :
    ∃ following,
      randomUints programStart (seed :: seeds) = some ((List.range (seeds.length + 1)).map fun k =>
        mtTempering (mtSeededSequence seed.word (k + 624)), following) := by
  obtain ⟨ready, hready, hdrawn⟩ := program_start_ensure seed
  obtain ⟨following, hget, hdrawn⟩ := get_random_uint_ensured hready hdrawn
  obtain ⟨final, hrest⟩ := hdrawn.random_uints seeds
  refine ⟨final, ?_⟩
  rw [List.range_eq_range', List.range'_succ]
  exact random_uints_cons hget hrest

/-- What `get_random_uint` does to the state. -/
def randomStep (state : RandomState) (seed : Seed) : Option RandomState :=
  (getRandomUint seed state).map Prod.snd

/-- It can be called again. -/
theorem StartedOrInitialized.random_step (h : StartedOrInitialized state) (seed : Seed) :
    ∃ following, randomStep state seed = some following ∧ StartedOrInitialized following := by
  obtain ⟨value, following, hget, hfollowing⟩ := h.get_random_uint seed
  refine ⟨following, ?_, hfollowing⟩
  unfold randomStep
  rw [hget]
  rfl

/-- So every state that calls of `get_random_uint` lead to is one that it can be called in. -/
theorem StartedOrInitialized.of_step {following : RandomState} (h : StartedOrInitialized state)
    (hstep : randomStep state seed = some following) : StartedOrInitialized following := by
  obtain ⟨following', hstep', hfollowing⟩ := h.random_step seed
  rwa [← Option.some.inj (hstep'.symm.trans hstep)]

/-- **The random words.** From any words with `random_index` at 624, `generate_random` returns the
temperings of the elements of the sequence of MT19937 that follow them, without an access outside of
the table. From the program's start `get_random_uint` always seeds before it draws: its words are
those of MT19937 for the seed that its first call makes of the time and the process. -/
theorem random_words_mt19937 :
    (∀ (flag : Bool) (words : Words) (n : Nat), ∃ following,
      draws n { initialized := flag, words, index := 624 } =
        some ((List.range n).map fun k => mtTempering (mtSequence words (k + 624)), following)) ∧
    (∀ seeds : List Seed,
      (∃ final, run randomStep programStart seeds = some final) ∧
        Throughout randomStep
          (fun state seed => ∃ ready, ensureInitialized seed state = some ready ∧ Initialized ready)
          programStart seeds) ∧
    ∀ (seed : Seed) (seeds : List Seed), ∃ following,
      randomUints programStart (seed :: seeds) = some ((List.range (seeds.length + 1)).map fun k =>
        mtTempering (mtSeededSequence seed.word (k + 624)), following) := by
  refine ⟨fun flag words n => ?_, fun seeds => ?_, random_uints_start⟩
  · obtain ⟨following, hdraws, -, -⟩ :=
      (ready_of_full flag words).draws (mt_sequence_step words) n
    rw [List.range_eq_range']
    exact ⟨following, hdraws⟩
  · have hstart : StartedOrInitialized programStart := Or.inl rfl
    obtain ⟨final, hrun, -⟩ : ∃ final, run randomStep programStart seeds = some final ∧
        StartedOrInitialized final :=
      run_total (fun seed _ state hstate => hstate.random_step seed) hstart
    refine ⟨⟨final, hrun⟩, ?_⟩
    exact throughout_of_preserved (fun state seed following hstate hstep => hstate.of_step hstep)
      (fun state seed hstate => hstate.ensure seed) hstart

end Emme.Uuid
