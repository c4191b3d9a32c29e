import Minni.Afm.Chunking
import Minni.Foundation.Windows
import Mathlib.Tactic.Ring

/-!
# Chunked calls cover the text

Every window ends where the next one begins or later, so the pieces of a text
cover its words; and what is cut again is covered by its own pieces.  The size
of a chunk goes down with every cut, so the calls end.
-/

namespace Minni
namespace Afm

open Foundation

/-!
## One window
-/

section Windows

variable {words : List Word}

theorem isWord_drop_take {start length : Nat}
    (hwords : forall word, word ∈ words ->
      Words.IsWord PyText.isSpace word) :
    forall word, word ∈ (words.drop start).take length ->
      Words.IsWord PyText.isSpace word := by
  intro word hword
  exact hwords word (List.mem_of_mem_drop (List.mem_of_mem_take hword))

theorem wordsOf_joinWords
    (hwords : forall word, word ∈ words ->
      Words.IsWord PyText.isSpace word) :
    wordsOf (joinWords words) = words :=
  Words.split_join (by decide) hwords

theorem sentenceEnd_space {before : Option Char} {text : List Char} {i : Nat}
    (h : sentenceEnd before text = some i) :
    exists c, text[i]? = some c ∧ PyText.isSpace c = true := by
  induction text generalizing before i with
  | nil => cases h
  | cons c rest ih =>
      rw [sentenceEnd] at h
      split at h
      · rename_i hspace
        rw [Bool.and_eq_true] at hspace
        rw [← Option.some.inj h]
        exact ⟨c, rfl, hspace.left⟩
      · rcases Option.map_eq_some_iff.mp h with ⟨j, hj, heq⟩
        rcases ih hj with ⟨d, hd, hspace⟩
        rw [← heq]
        exact ⟨d, hd, hspace⟩

/-- A window is a slice of the words. -/
theorem snapWindow_spec {start chunk_tokens : Nat}
    (hwords : forall word, word ∈ words ->
      Words.IsWord PyText.isSpace word)
    (hstart : start < words.length) (hchunk : 0 < chunk_tokens) :
    (snapWindow words start chunk_tokens).1 =
        Windows.slice words
          (start, (snapWindow words start chunk_tokens).2) ∧
      start < (snapWindow words start chunk_tokens).2 ∧
      min (start + chunk_tokens) words.length ≤
        (snapWindow words start chunk_tokens).2 ∧
      (snapWindow words start chunk_tokens).2 ≤ words.length := by
  have hmin : start < min (start + chunk_tokens) words.length :=
    lt_min (Nat.lt_add_of_pos_right hchunk) hstart
  have hmax : min (start + chunk_tokens) words.length ≤ words.length :=
    min_le_right _ _
  unfold snapWindow
  dsimp only
  generalize min (start + chunk_tokens) words.length = end_ at hmin hmax ⊢
  split
  · split
    · exact ⟨rfl, hmin, le_refl _, hmax⟩
    · rename_i i hsentence
      rcases sentenceEnd_space hsentence with ⟨c, hat, hspace⟩
      have hextra := Words.split_take_space hat hspace
      have hlook : Words.split PyText.isSpace (joinWords
          ((words.drop end_).take sentenceSnapLookaheadWords)) =
          (words.drop end_).take sentenceSnapLookaheadWords :=
        wordsOf_joinWords (isWord_drop_take hwords)
      rw [hlook] at hextra
      have hprefixed := hextra.trans (List.take_prefix _ _)
      show (words.drop start).take (end_ - start) ++
          Words.split PyText.isSpace _ = _ ∧ _
      have hwordsOf : forall text, wordsOf text =
          Words.split PyText.isSpace text := fun text => rfl
      simp only [hwordsOf]
      generalize Words.split PyText.isSpace
        ((joinWords ((words.drop end_).take
          sentenceSnapLookaheadWords)).take (i + 1)) = extra at hprefixed ⊢
      have hlength : extra.length ≤ words.length - end_ := by
        have hle := hprefixed.length_le
        rw [List.length_drop] at hle
        exact hle
      refine ⟨?_, ?_, ?_, ?_⟩
      · unfold Windows.slice
        dsimp only
        have hsum : end_ + extra.length - start =
            (end_ - start) + extra.length := by omega
        rw [hsum, List.take_add, List.drop_drop,
          Nat.add_sub_cancel' (le_of_lt hmin),
          List.prefix_iff_eq_take.mp hprefixed]
        congr 2
        rw [List.length_take]
        have hdrop : extra.length ≤ (words.drop end_).length := by
          rw [List.length_drop]
          exact hlength
        rw [min_eq_left hdrop]
      · omega
      · omega
      · omega
  · exact ⟨rfl, hmin, le_refl _, hmax⟩

/-!
## All windows
-/

/-- The windows of a loop go on from where it starts. -/
theorem splitLoop_covers {chunk_tokens : Nat} (overlap_tokens : Nat)
    (hwords : forall word, word ∈ words ->
      Words.IsWord PyText.isSpace word)
    (hchunk : 0 < chunk_tokens) (start : Nat) :
    exists windows,
      (splitLoop words chunk_tokens overlap_tokens start).map wordsOf =
          windows.map (Windows.slice words) ∧
        Windows.Within words.length windows ∧
        Windows.Linked start windows words.length := by
  induction hleft : words.length - start using Nat.strong_induction_on
    generalizing start with
  | h left ih =>
      rw [splitLoop]
      split
      · rename_i hstart
        rcases snapWindow_spec hwords hstart hchunk with
          ⟨hslice, hlt, hmin, hmax⟩
        cases hwindow : snapWindow words start chunk_tokens with
        | mk window end_ =>
            rw [hwindow] at hslice hlt hmin hmax
            dsimp only at hslice hlt hmin hmax ⊢
            have hinside : forall word, word ∈ window ->
                Words.IsWord PyText.isSpace word := by
              rw [hslice]
              exact isWord_drop_take hwords
            have hsplit := wordsOf_joinWords hinside
            have hnonempty : window ≠ [] := by
              intro hnil
              have hzero := Windows.length_slice (start, end_) hmax
              rw [← hslice, hnil] at hzero
              exact absurd hzero.symm (Nat.sub_ne_zero_of_lt hlt)
            have hblank : isBlank (joinWords window) = false := by
              cases hb : isBlank (joinWords window) with
              | false => rfl
              | true =>
                  have hno := Words.split_eq_nil_iff.mpr hb
                  exact absurd (hsplit.symm.trans hno) hnonempty
            rw [hblank]
            simp only [Bool.false_eq_true, if_false, List.map_cons]
            rw [hsplit]
            split
            · rename_i hend
              refine ⟨[(start, end_)], ?_, ?_, ?_⟩
              · rw [List.map_cons, ← hslice]
                rfl
              · intro other hother
                rw [List.mem_singleton.mp hother]
                exact ⟨le_of_lt hlt, hmax⟩
              · exact ⟨le_refl _, hend⟩
            · rename_i hend
              have hnext : start + max (chunk_tokens - overlap_tokens) 1 ≤
                  end_ := by
                have hstep : max (chunk_tokens - overlap_tokens) 1 ≤
                    chunk_tokens := max_le (Nat.sub_le _ _) hchunk
                omega
              have hone : 1 ≤ max (chunk_tokens - overlap_tokens) 1 :=
                le_max_right _ _
              rcases ih _ (by omega)
                (start + max (chunk_tokens - overlap_tokens) 1) rfl with
                ⟨windows, hmap, hwithin, hlinked⟩
              refine ⟨(start, end_) :: windows, ?_, ?_, ?_⟩
              · rw [List.map_cons, ← hslice, hmap]
              · intro other hother
                rcases List.mem_cons.mp hother with hsame | hrest
                · rw [hsame]
                  exact ⟨le_of_lt hlt, hmax⟩
                · exact hwithin other hrest
              · exact ⟨le_refl _, Windows.linked_mono hlinked hnext⟩
      · rename_i hstart
        exact ⟨[], rfl, fun window h => absurd h List.not_mem_nil,
          not_lt.mp hstart⟩

end Windows

theorem isWord_wordsOf (text : List Char) :
    forall word, word ∈ wordsOf text -> Words.IsWord PyText.isSpace word :=
  fun _ hword => Words.isWord_split hword

theorem splitText_covers (host : ChunkHost) (text : List Char)
    {chunk_tokens : Nat} (overlap_tokens : Nat) (hchunk : 0 < chunk_tokens) :
    Windows.Covers (wordsOf text)
      ((splitText host text chunk_tokens overlap_tokens).map wordsOf) := by
  unfold splitText
  split
  · exact Windows.covers_self _
  · split
    · exact Windows.covers_self _
    · rcases splitLoop_covers overlap_tokens
        (isWord_wordsOf text) hchunk 0 with ⟨windows, hmap, hwithin, hlinked⟩
      split
      · exact Windows.covers_self _
      · exact ⟨windows, hmap, hwithin, hlinked⟩

/-!
## The calls
-/

section Calls

variable {host : ChunkHost} {native_op : NativeOp} {text_field : String}

/-- The words that a call is about. -/
def callWords (text_field : String) (payload : Payload) : List Word :=
  wordsOf (payloadText text_field payload)

def CallsCover (text_field : String) (payload : Payload)
    (called : List Called) : Prop :=
  Windows.Covers (callWords text_field payload)
    (called.map fun call => callWords text_field call.payload)

theorem payloadText_setText (payload : Payload) (text : List Char) :
    payloadText text_field (setText text_field payload text) = text := by
  unfold payloadText setText firstText firstTruthy
  simp only [List.findSome?_cons, List.findSome?_nil, Json.field?,
    Dict.lookup_set, if_true, Option.filter_some]
  by_cases hempty : String.ofList text = ""
  · have htext := congrArg String.toList hempty
    rw [String.toList_ofList] at htext
    simp [truthyText, htext]
  · simp [truthyText, hempty]

theorem callOnce_covers (payload : Payload) (calls : Nat) :
    CallsCover text_field payload (callOnce native_op payload calls).1 :=
  Windows.covers_self _

theorem callPieces_covers
    {resplit : Option (Payload -> Nat -> List Called × Nat)}
    (hresplit : forall again, resplit = some again -> forall payload calls,
      CallsCover text_field payload (again payload calls).1)
    (payload : Payload) (pieces : List (List Char)) (calls : Nat) :
    exists parts, List.Forall₂ Windows.Covers (pieces.map wordsOf) parts ∧
      (callPieces host native_op text_field resplit payload pieces
        calls).1.map (fun call => callWords text_field call.payload) =
        parts.flatten := by
  induction pieces generalizing calls with
  | nil => exact ⟨[], List.Forall₂.nil, rfl⟩
  | cons piece pieces ih =>
      unfold callPieces
      dsimp only
      have hwords : callWords text_field (setText text_field payload piece) =
          wordsOf piece := by
        unfold callWords
        rw [payloadText_setText]
      -- what one piece comes to, however it is answered
      have hhere : forall (here : List Called) (next : Nat),
          CallsCover text_field (setText text_field payload piece) here ->
          exists parts,
            List.Forall₂ Windows.Covers ((piece :: pieces).map wordsOf) parts ∧
              (here ++ (callPieces host native_op text_field resplit payload
                pieces next).1).map
                  (fun call => callWords text_field call.payload) =
                parts.flatten := by
        intro here next hcover
        rcases ih next with ⟨parts, hparts, heq⟩
        unfold CallsCover at hcover
        rw [hwords] at hcover
        refine ⟨_ :: parts, List.Forall₂.cons hcover hparts, ?_⟩
        rw [List.map_append, heq, List.flatten_cons]
      cases resplit with
      | none => exact hhere _ _ (Windows.covers_self _)
      | some again =>
          dsimp only
          split
          · exact hhere _ _ (hresplit again rfl _ _)
          · exact hhere _ _ (Windows.covers_self _)

theorem covers_of_pieces {payload : Payload} {pieces : List (List Char)}
    {called : List Called}
    (hpieces : Windows.Covers (callWords text_field payload)
      (pieces.map wordsOf))
    (hcalled : exists parts,
      List.Forall₂ Windows.Covers (pieces.map wordsOf) parts ∧
        called.map (fun call => callWords text_field call.payload) =
          parts.flatten) :
    CallsCover text_field payload called := by
  rcases hcalled with ⟨parts, hparts, heq⟩
  unfold CallsCover
  rw [heq]
  exact Windows.covers_flatten hpieces hparts

theorem chunkAndCall_covers (overlap_tokens : Int) (chunk_tokens : Nat)
    (payload : Payload) (calls : Nat) :
    CallsCover text_field payload
      (chunkAndCall host native_op text_field overlap_tokens chunk_tokens
        payload calls).1 := by
  induction chunk_tokens using Nat.strong_induction_on
    generalizing payload calls with
  | h chunk_tokens ih =>
      rw [chunkAndCall]
      dsimp only
      split
      · exact callOnce_covers payload calls
      · rename_i hgo
        rw [Bool.or_eq_true, not_or, decide_eq_true_iff, not_lt] at hgo
        have hpositive : 0 < chunk_tokens :=
          lt_of_lt_of_le (by decide) hgo.right
        have hpieces := splitText_covers host
          (payloadText text_field payload)
          (effectiveOverlapTokens chunk_tokens overlap_tokens) hpositive
        split
        · split
          · exact callOnce_covers payload calls
          · exact covers_of_pieces hpieces
              (callPieces_covers (by intro again h; cases h) payload _ calls)
        · rename_i hfloor
          have hless : max (chunk_tokens / 2) minChunkTokens < chunk_tokens :=
            max_lt (Nat.div_lt_self hpositive (by decide)) (not_le.mp hfloor)
          split
          · exact ih _ hless payload calls
          · apply covers_of_pieces hpieces
            apply callPieces_covers
            intro again hagain payload' calls'
            rw [← Option.some.inj hagain]
            exact ih _ hless payload' calls'

theorem callInChunks_covers (limits : ChunkLimits) (payload : Payload)
    (calls : Nat) :
    CallsCover text_field payload
      (callInChunks host native_op text_field limits payload calls).called := by
  unfold callInChunks
  dsimp only
  split
  · exact callOnce_covers payload calls
  · exact chunkAndCall_covers _ _ payload calls

end Calls

/-- The calls end, and those whose results are returned cover the words of the
text, so that every word is in one of them. -/
theorem callNativeOpChunked_covers (host : ChunkHost) (native_op : NativeOp)
    (text_field : String) (limits : ChunkLimits) (payload : Payload)
    (calls : Nat) :
    CallsCover text_field payload
        (callNativeOpChunked host native_op text_field limits payload
          calls).called ∧
      forall word, word ∈ callWords text_field payload ->
        exists call, call ∈ (callNativeOpChunked host native_op text_field
            limits payload calls).called ∧
          word ∈ callWords text_field call.payload := by
  have hcovers : CallsCover text_field payload
      (callNativeOpChunked host native_op text_field limits payload
        calls).called := by
    unfold callNativeOpChunked
    split
    · dsimp only
      split
      · exact callInChunks_covers limits payload _
      · exact Windows.covers_self _
    · exact callInChunks_covers limits payload calls
  constructor
  · exact hcovers
  · intro word hword
    rcases Windows.mem_of_covers hcovers hword with ⟨piece, hpiece, hin⟩
    rcases List.mem_map.mp hpiece with ⟨call, hcall, heq⟩
    rw [← heq] at hin
    exact ⟨call, hcall, hin⟩

end Afm
end Minni
