import SceneGraph.Identifiers
import Mathlib.Data.List.Basic

/-!
# Digests computed over lists: no word is looked up by its place in the whole message

The digest is restated as a recursion on the bytes of the message, which moves a window of sixteen
words along. It is the same digest (`ofBytes_eq`), and one that the kernel can compute.
-/
namespace SceneGraph.Sha256

/-- The word to which the last sixteen words of a schedule lead. -/
def nextWord (window : List UInt32) : UInt32 :=
  let at' (k : Nat) : UInt32 := window.getD k 0
  let s0 := rotate (at' 1) 7 ^^^ rotate (at' 1) 18 ^^^ (at' 1 >>> 3)
  let s1 := rotate (at' 14) 17 ^^^ rotate (at' 14) 19 ^^^ (at' 14 >>> 10)
  at' 0 + s0 + at' 9 + s1

/-- A window of sixteen words, and the words to which it leads when it is moved on. -/
def slide : Nat → List UInt32 → List UInt32
  | 0, window => window
  | n + 1, window => window.headD 0 :: slide n (window.tail ++ [nextWord window])

theorem extend_window {window : List UInt32} (h : window.length = 16) (earlier : List UInt32) :
    extend (earlier ++ window).toArray = (earlier ++ window ++ [nextWord window]).toArray := by
  have hback (k : Nat) (hk : k ≤ 16) :
      (earlier ++ window).toArray.getD ((earlier ++ window).toArray.size - k) 0 =
        window.getD (16 - k) 0 := by
    have hplace : earlier.length + 16 - k = earlier.length + (16 - k) := by omega
    simp [h, hplace, List.getElem?_append_right]
  simp only [extend, nextWord, hback, Nat.le_refl, Nat.reduceLeDiff, Nat.reduceSub]
  simp

theorem foldl_extend_window {window : List UInt32} (h : window.length = 16)
    (earlier : List UInt32) (steps : List Nat) :
    steps.foldl (fun words _ => extend words) (earlier ++ window).toArray =
      (earlier ++ slide steps.length window).toArray := by
  induction steps generalizing earlier window with
  | nil => rfl
  | cons step steps ih =>
    obtain ⟨first, rest, rfl⟩ := List.exists_cons_of_length_eq_add_one h
    have hlength : (rest ++ [nextWord (first :: rest)]).length = 16 := by simpa using h
    rw [List.foldl_cons, extend_window h]
    simpa [slide] using ih hlength (earlier ++ [first])

theorem schedule_eq {block : List UInt32} (h : block.length = 16) :
    schedule block.toArray = (slide 48 block).toArray := by
  simpa [schedule] using foldl_extend_window h [] (List.range 48)

/-- The word with which a list of bytes begins. -/
def firstWord (bytes : List UInt8) : UInt32 :=
  (List.range 4).foldl (fun w i => (w <<< 8) ||| (bytes[i]?.getD 0).toUInt32) 0

/-- The sixteen words with which a list of bytes begins. -/
def firstBlock (bytes : List UInt8) : List UInt32 :=
  (List.range 16).map fun i => firstWord (bytes.drop (4 * i))

/-- Compresses the block with which a list of bytes begins. -/
def compressFirst (s : State) (bytes : List UInt8) : State :=
  let t := (List.zip roundConstants (slide 48 (firstBlock bytes))).foldl
    (fun t (constant, word) => round t constant word) s
  ⟨s.a + t.a, s.b + t.b, s.c + t.c, s.d + t.d, s.e + t.e, s.f + t.f, s.g + t.g, s.h + t.h⟩

/-- The bytes that follow a message of `size` bytes. -/
def padding (size : Nat) : List UInt8 :=
  0x80 :: (List.replicate ((119 - size % 64) % 64) (0 : UInt8) ++
    (List.range 8).map fun i => UInt8.ofNat ((8 * size) >>> (8 * (7 - i))))

def ofList (bytes : List UInt8) : Digest :=
  let padded := bytes ++ padding bytes.length
  let s := (List.range (padded.length / 64)).foldl
    (fun s i => compressFirst s (padded.drop (64 * i))) start
  ⟨[s.a, s.b, s.c, s.d, s.e, s.f, s.g, s.h]⟩

variable (bytes : ByteArray)

theorem toList_foldl_push {α : Type} (f : α → UInt8) (items : List α) :
    (items.foldl (fun b i => b.push (f i)) bytes).data.toList =
      bytes.data.toList ++ items.map f := by
  induction items generalizing bytes with
  | nil => simp
  | cons i items ih =>
    rw [List.foldl_cons, ih, ByteArray.data_push]
    simp

theorem toList_pad : (pad bytes).data.toList = bytes.data.toList ++ padding bytes.size := by
  simp only [pad, toList_foldl_push, ByteArray.data_push, Array.toList_push, padding]
  simp

theorem getElem?_toList (i : Nat) : bytes[i]? = bytes.data.toList[i]? := by
  rw [Array.getElem?_toList]
  rfl

theorem word_eq (i : Nat) : word bytes i = firstWord (bytes.data.toList.drop i) := by
  simp only [word, firstWord, getElem?_toList, List.getElem?_drop]

theorem block_eq (i : Nat) :
    block bytes i = (firstBlock (bytes.data.toList.drop (64 * i))).toArray := by
  simp only [block, firstBlock, word_eq, List.drop_drop]

theorem compress_block (s : State) (i : Nat) :
    compress s (block bytes i) = compressFirst s (bytes.data.toList.drop (64 * i)) := by
  rw [compress, block_eq, schedule_eq (by simp [firstBlock])]
  rfl

/-- The digest of bytes is that of the list of them. -/
theorem ofBytes_eq : ofBytes bytes = ofList bytes.data.toList := by
  have hsize (b : ByteArray) : b.size = b.data.toList.length := rfl
  simp only [ofBytes, ofList, compress_block, hsize, toList_pad]

end SceneGraph.Sha256
