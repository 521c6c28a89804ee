import MotokoDebugger.Module.Parser

/-!
# Streaming and buffered parsing

* `Chunked`: what is relied on of the binary parser, that a payload does not depend on the chunks
  it is read in.
* `loops_agree`: a loop of the streaming parser and one of the buffered parser over the same bytes
  with the same body end alike.
* `parsers_agree`: both parsers do.
-/

namespace MotokoDebugger

open Wasmparser (Payload Chunk ParserError)

variable {P V F C R S : Type}

/-- The binary parser yields the same payloads however its input is cut. More data is asked for
only where the input so far is no payload; the end of the input is one that may be asked for
again. -/
structure Chunked (parse : P → List Byte → Bool → Except ParserError (Chunk × P)) : Prop where
  consumed_le : ∀ {p b eof n payload p'}, parse p b eof = .ok (.parsed n payload, p') → n ≤ b.length
  consumed_pos : ∀ {p b eof n payload p'}, parse p b eof = .ok (.parsed n payload, p') →
    0 < n ∨ ∃ offset, payload = .end offset
  parsed : ∀ {p b n payload p'}, parse p b false = .ok (.parsed n payload, p') →
    ∀ c, parse p (b ++ c) true = .ok (.parsed n payload, p')
  error : ∀ {p b e}, parse p b false = .error e → ∀ c, ∃ e', parse p (b ++ c) true = .error e'
  hint_pos : ∀ {p b hint p'}, parse p b false = .ok (.needMoreData hint, p') → 0 < hint
  more : ∀ {p b hint p'}, parse p b false = .ok (.needMoreData hint, p') →
    ∀ c, parse p' (b ++ c) true = parse p (b ++ c) true
  noPayload : ∀ {p b hint p'}, parse p b false = .ok (.needMoreData hint, p') →
    (∃ e, parse p b true = .error e) ∨
      ∃ n offset p'', parse p b true = .ok (.parsed n (.end offset), p'')
  eof : ∀ {p b hint p'}, parse p b true ≠ .ok (.needMoreData hint, p')
  endAgain : ∀ {p b n offset p'}, parse p b true = .ok (.parsed n (.end offset), p') →
    parse p' b true = .ok (.parsed n (.end offset), p')

/-! ## One round of a loop -/

namespace LoadEnv

variable {env : LoadEnv P V F C} {body : S → Payload → List Byte → LoadM V C (Flow S)}

theorem bufferedLoop_error {p : P} {b : List Byte} {e : ParserError}
    (h : env.parse p b true = .error e) (fuel : Nat) (s : S) (loader : Loader V C) :
    env.bufferedLoop body (fuel + 1) p b s loader = some (.error (.error (.wasm e))) := by
  simp only [bufferedLoop, h]
  rfl

theorem bufferedLoop_parsed {p p' : P} {b : List Byte} {n : Nat} {payload : Payload}
    (h : env.parse p b true = .ok (.parsed n payload, p')) (fuel : Nat) (s : S)
    (loader : Loader V C) :
    env.bufferedLoop body (fuel + 1) p b s loader =
      match body s payload (b.take n) loader with
      | .error stop => some (.error stop)
      | .ok (.next s, loader) => env.bufferedLoop body fuel p' (b.drop n) s loader
      | .ok (.stop s true, loader) => some (.ok ((s, p', b.drop n), loader))
      | .ok (.stop s false, loader) => some (.ok ((s, p', b), loader)) := by
  simp only [bufferedLoop, h]
  rcases hbody : body s payload (b.take n) loader with stop | ⟨s' | ⟨s', _ | _⟩, loader'⟩ <;>
    simp only [bind, StateT.bind, LoadM.once, hbody] <;> rfl

variable {bytes : ByteStream R} {stopAtEof : Bool}

theorem streamingLoop_error {st : StreamState P R} {e : ParserError}
    (h : env.parse st.parser st.buffer st.eof = .error e) (fuel : Nat) (s : S)
    (loader : Loader V C) :
    env.streamingLoop bytes stopAtEof body (fuel + 1) st s loader =
      some (.error (.error (.wasm e))) := by
  simp only [streamingLoop, h]
  rfl

theorem streamingLoop_parsed {st : StreamState P R} {p' : P} {n : Nat} {payload : Payload}
    (h : env.parse st.parser st.buffer st.eof = .ok (.parsed n payload, p')) (fuel : Nat) (s : S)
    (loader : Loader V C) :
    env.streamingLoop bytes stopAtEof body (fuel + 1) st s loader =
      match body s payload (st.buffer.take n) loader with
      | .error stop => some (.error stop)
      | .ok (.next s, loader) => env.streamingLoop bytes stopAtEof body fuel
          { st with parser := p', buffer := st.buffer.drop n } s loader
      | .ok (.stop s true, loader) =>
        some (.ok ((s, { st with parser := p', buffer := st.buffer.drop n }), loader))
      | .ok (.stop s false, loader) => some (.ok ((s, { st with parser := p' }), loader)) := by
  simp only [streamingLoop, h]
  rcases hbody : body s payload (st.buffer.take n) loader with
    stop | ⟨s' | ⟨s', _ | _⟩, loader'⟩ <;>
    simp only [bind, StateT.bind, LoadM.once, hbody] <;> rfl

theorem streamingLoop_more {st st' : StreamState P R} {p' : P} {hint : Nat}
    (h : env.parse st.parser st.buffer st.eof = .ok (.needMoreData hint, p'))
    (hst : { st with parser := p' }.pullBytes bytes hint = st') (fuel : Nat) (s : S)
    (loader : Loader V C) :
    env.streamingLoop bytes stopAtEof body (fuel + 1) st s loader =
      if stopAtEof && st'.eof then some (.ok ((s, st'), loader))
      else env.streamingLoop bytes stopAtEof body fuel st' s loader := by
  simp only [streamingLoop, h, hst]
  split <;> rfl

/-! ## Two loops over the same bytes -/

/-- The streaming parser is where the buffered parser is, in a binary of at most `len` bytes more:
its buffer and its stream are the other buffer, and both make the same of it. -/
structure Aligned (env : LoadEnv P V F C) (bytes : ByteStream R) (len : Nat)
    (st : StreamState P R) (p : P) (b : List Byte) : Prop where
  bytes_eq : b = st.buffer ++ bytes.rest st.stream
  eof : st.eof = true → bytes.rest st.stream = []
  parse_eq : env.parse st.parser b true = env.parse p b true
  length_le : b.length ≤ len

/-- How the outcomes of the two parsers agree: they return related values and the same tables, or
stop alike. In `pending` the streaming parser has still to meet the error. -/
inductive Agree {A B : Type} (Q : A → B → Prop) (Pending : A → Prop) :
    Except LoadStop (A × Loader V C) → Except LoadStop (B × Loader V C) → Prop where
  | returned (a b loader) : Q a b → Agree Q Pending (.ok (a, loader)) (.ok (b, loader))
  | failed (e e') : Agree Q Pending (.error (.error e)) (.error (.error e'))
  | panicked : Agree Q Pending (.error .panic) (.error .panic)
  | pending (a loader e) : Pending a → Agree Q Pending (.ok (a, loader)) (.error (.error e))

theorem Agree.stopped {A B : Type} {Q : A → B → Prop} {Pending : A → Prop} (stop : LoadStop) :
    Agree (V := V) (C := C) Q Pending (.error stop) (.error stop) := by
  cases stop with
  | error e => exact .failed e e
  | panic => exact .panicked

/-- The results of two loops. -/
def LoopsAgree (env : LoadEnv P V F C) (bytes : ByteStream R) (len : Nat)
    (x : S × StreamState P R) (y : S × P × List Byte) : Prop :=
  x.1 = y.1 ∧ Aligned env bytes len x.2 y.2.1 y.2.2

/-- A loop that stops at the end of the stream is there, and the binary parser fails there. -/
def FailsAtEof (env : LoadEnv P V F C) (stopAtEof : Bool) (x : S × StreamState P R) : Prop :=
  stopAtEof = true ∧ x.2.eof = true ∧ ∃ e, env.parse x.2.parser x.2.buffer true = .error e

/-- What the streaming loops have before them: bytes to pull are also to be parsed. -/
def StreamState.work (bytes : ByteStream R) (st : StreamState P R) : Nat :=
  st.buffer.length + 2 * (bytes.rest st.stream).length + if st.eof then 0 else 1

/-- Does the body of a loop leave it at the end of the binary? -/
def LeavesAtEnd (stopAtEof : Bool) (body : S → Payload → List Byte → LoadM V C (Flow S)) : Prop :=
  ∀ s offset bs loader, (∀ s' loader', body s (.end offset) bs loader ≠ .ok (.next s', loader')) ∧
    (stopAtEof = true → body s (.end offset) bs loader = .ok (.stop s false, loader))

theorem parser_pullBytes (bytes : ByteStream R) (hint : Nat) (st : StreamState P R) :
    (st.pullBytes bytes hint).parser = st.parser := rfl

/-- A pull moves bytes of the stream into the buffer, or reports the end of the stream. -/
theorem pullBytes_spec (bytes : ByteStream R) {hint : Nat} (hhint : 0 < hint)
    (st : StreamState P R) :
    (st.pullBytes bytes hint).buffer ++ bytes.rest (st.pullBytes bytes hint).stream =
        st.buffer ++ bytes.rest st.stream ∧
      (((st.pullBytes bytes hint).eof = false ∧
          (bytes.rest (st.pullBytes bytes hint).stream).length <
            (bytes.rest st.stream).length) ∨
        ((st.pullBytes bytes hint).eof = true ∧
          bytes.rest (st.pullBytes bytes hint).stream = [] ∧ bytes.rest st.stream = [] ∧
          (st.pullBytes bytes hint).buffer = st.buffer)) := by
  have hrest := bytes.rest_eq st.stream hint
  have hlen := congrArg List.length hrest
  rw [List.length_append] at hlen
  unfold StreamState.pullBytes
  refine ⟨?_, ?_⟩
  · show st.buffer ++ (bytes.read st.stream hint).1 ++ bytes.rest (bytes.read st.stream hint).2 = _
    rw [List.append_assoc, ← hrest]
  · by_cases hread : (bytes.read st.stream hint).1 = []
    · have hnil : bytes.rest st.stream = [] := by
        by_contra hne
        exact bytes.length_pos st.stream hint hhint hne hread
      rw [hread, List.nil_append] at hrest
      exact .inr ⟨by simp [hread], hrest.symm.trans hnil, hnil, by simp [hread]⟩
    · have hpos := List.length_pos_iff.mpr hread
      refine .inl ⟨?_, ?_⟩
      · show decide ((bytes.read st.stream hint).1.length = 0) = false
        exact decide_eq_false (by omega)
      · show (bytes.rest (bytes.read st.stream hint).2).length < _
        omega

section Loops

variable {bytes : ByteStream R} {stopAtEof : Bool} {len : Nat}

/-- A payload in the buffer is one of the whole input. -/
theorem Aligned.parse_whole (hparse : Chunked env.parse) {st : StreamState P R} {p p' : P}
    {b : List Byte} {n : Nat} {payload : Payload} (h : Aligned env bytes len st p b)
    (hst : env.parse st.parser st.buffer st.eof = .ok (.parsed n payload, p')) :
    env.parse p b true = .ok (.parsed n payload, p') := by
  rw [← h.parse_eq, h.bytes_eq]
  cases heof : st.eof with
  | false => exact hparse.parsed (heof ▸ hst) _
  | true =>
    rw [h.eof heof, List.append_nil]
    exact heof ▸ hst

/-- The loops go on behind the same payload. -/
theorem Aligned.consume (hparse : Chunked env.parse) {st : StreamState P R} {p p' : P}
    {b : List Byte} {n : Nat} {payload : Payload} (h : Aligned env bytes len st p b)
    (hst : env.parse st.parser st.buffer st.eof = .ok (.parsed n payload, p')) :
    Aligned env bytes len { st with parser := p', buffer := st.buffer.drop n } p' (b.drop n) := by
  have hn := hparse.consumed_le hst
  constructor
  · show b.drop n = st.buffer.drop n ++ bytes.rest st.stream
    rw [h.bytes_eq, List.drop_append_of_le_length hn]
  · exact h.eof
  · rfl
  · have := h.length_le
    rw [List.length_drop]
    omega

theorem Aligned.keep {st : StreamState P R} {p p' : P} {b : List Byte}
    (h : Aligned env bytes len st p b) :
    Aligned env bytes len { st with parser := p' } p' b :=
  ⟨h.bytes_eq, h.eof, rfl, h.length_le⟩

/-- More bytes in the buffer change nothing for the buffered parser. -/
theorem Aligned.pull (hparse : Chunked env.parse) {st : StreamState P R} {p p' : P}
    {b : List Byte} {hint : Nat} (h : Aligned env bytes len st p b)
    (hst : env.parse st.parser st.buffer false = .ok (.needMoreData hint, p')) :
    Aligned env bytes len ({ st with parser := p' }.pullBytes bytes hint) p b := by
  have hspec := pullBytes_spec bytes (hparse.hint_pos hst) { st with parser := p' }
  constructor
  · exact h.bytes_eq.trans hspec.1.symm
  · intro htrue
    rcases hspec.2 with ⟨hfalse, _⟩ | ⟨_, hnil, _⟩
    · rw [hfalse] at htrue
      exact absurd htrue (by decide)
    · exact hnil
  · rw [parser_pullBytes, ← h.parse_eq, h.bytes_eq]
    exact hparse.more hst _
  · exact h.length_le

/-- Where the streaming header loop leaves at the end of the stream, the buffered one leaves at the
end of the binary or fails. -/
theorem agree_at_eof (hparse : Chunked env.parse) (hbody : LeavesAtEnd true body)
    {st : StreamState P R} {p p' : P} {b : List Byte} {hint : Nat}
    (h : Aligned env bytes len st p b)
    (hst : env.parse st.parser st.buffer false = .ok (.needMoreData hint, p'))
    (hend : ({ st with parser := p' }.pullBytes bytes hint).eof = true) (fuel : Nat) (s : S)
    (loader : Loader V C) :
    ∃ y, env.bufferedLoop body (fuel + 1) p b s loader = some y ∧
      Agree (LoopsAgree env bytes len) (FailsAtEof env true)
        (.ok ((s, { st with parser := p' }.pullBytes bytes hint), loader)) y := by
  have hpull := h.pull hparse hst
  rcases (pullBytes_spec bytes (hparse.hint_pos hst) { st with parser := p' }).2 with
    ⟨hfalse, _⟩ | ⟨_, _, hrest, hbuffer⟩
  · rw [hfalse] at hend
    exact absurd hend (by decide)
  · have hb : b = st.buffer := by
      rw [h.bytes_eq]
      show st.buffer ++ bytes.rest st.stream = st.buffer
      rw [show bytes.rest st.stream = [] from hrest, List.append_nil]
    have hmore : env.parse p' b true = env.parse p b true := by
      rw [← h.parse_eq, hb]
      simpa using hparse.more hst []
    rcases hparse.noPayload hst with ⟨e, herror⟩ | ⟨n, offset, p'', hpayload⟩
    · rw [← hb, h.parse_eq] at herror
      refine ⟨_, bufferedLoop_error herror fuel s loader, .pending _ _ _ ⟨rfl, hend, e, ?_⟩⟩
      show env.parse p' _ true = _
      rw [hbuffer]
      show env.parse p' st.buffer true = _
      rw [← hb, hmore, herror]
    · rw [← hb, h.parse_eq] at hpayload
      refine ⟨.ok ((s, p'', b), loader), ?_, .returned _ _ _ ⟨rfl, ?_⟩⟩
      · rw [bufferedLoop_parsed hpayload, ((hbody s offset _ loader).2 rfl)]
      · refine ⟨hpull.bytes_eq, hpull.eof, ?_, hpull.length_le⟩
        rw [parser_pullBytes]
        show env.parse p' b true = env.parse p'' b true
        rw [hmore, hpayload, hparse.endAgain hpayload]

/-- A pull leaves less work. -/
theorem work_pullBytes {st : StreamState P R} {hint : Nat} (hhint : 0 < hint)
    (heof : st.eof = false) : (st.pullBytes bytes hint).work bytes < st.work bytes := by
  have hspec := pullBytes_spec bytes hhint st
  have hlen := congrArg List.length hspec.1
  simp only [List.length_append] at hlen
  unfold StreamState.work
  rw [heof]
  rcases hspec.2 with ⟨hfalse, hlt⟩ | ⟨htrue, hnil, hnil', hbuffer⟩
  · rw [hfalse]
    simp only [Bool.false_eq_true, if_false]
    omega
  · rw [htrue, hnil, hnil', hbuffer]
    simp only [Bool.false_eq_true, if_false, if_true]
    omega

/-- A loop of the streaming parser and one of the buffered parser with the same body end alike. -/
theorem loops_agree (hparse : Chunked env.parse) (hbody : LeavesAtEnd stopAtEof body) (n : Nat) :
    ∀ (fuel fuel' : Nat) (st : StreamState P R) (p : P) (b : List Byte) (s : S)
      (loader : Loader V C), n < fuel → n < fuel' → st.work bytes = n →
      Aligned env bytes len st p b →
      ∃ x y, env.streamingLoop bytes stopAtEof body fuel st s loader = some x ∧
        env.bufferedLoop body fuel' p b s loader = some y ∧
        Agree (LoopsAgree env bytes len) (FailsAtEof env stopAtEof) x y := by
  -- induction on the work that is left to the streaming loop
  induction n using Nat.strongRecOn with
  | ind n ih =>
    intro fuel fuel' st p b s loader hfuel hfuel' hwork h
    obtain ⟨fuel, rfl⟩ : ∃ k, fuel = k + 1 := ⟨fuel - 1, by omega⟩
    obtain ⟨fuel', rfl⟩ : ∃ k, fuel' = k + 1 := ⟨fuel' - 1, by omega⟩
    rcases hst : env.parse st.parser st.buffer st.eof with e | ⟨hint | ⟨k, payload⟩, p'⟩
    · -- an error in the buffer is one in the whole input
      have hwhole : ∃ e', env.parse p b true = .error e' := by
        rw [← h.parse_eq, h.bytes_eq]
        cases heof : st.eof with
        | false => exact hparse.error (heof ▸ hst) _
        | true =>
          rw [h.eof heof, List.append_nil]
          exact ⟨e, heof ▸ hst⟩
      obtain ⟨e', hwhole⟩ := hwhole
      exact ⟨_, _, streamingLoop_error hst fuel s loader,
        bufferedLoop_error hwhole fuel' s loader, .failed _ _⟩
    · have heof : st.eof = false := by
        cases heof : st.eof with
        | false => rfl
        | true =>
          rw [heof] at hst
          exact absurd hst hparse.eof
      have hst' : env.parse st.parser st.buffer false = .ok (.needMoreData hint, p') := heof ▸ hst
      have hpull := h.pull hparse hst'
      have hless : ({ st with parser := p' }.pullBytes bytes hint).work bytes < n :=
        hwork ▸ @work_pullBytes P R bytes { st with parser := p' } hint (hparse.hint_pos hst') heof
      by_cases hstop : (stopAtEof && ({ st with parser := p' }.pullBytes bytes hint).eof) = true
      · simp only [Bool.and_eq_true] at hstop
        obtain ⟨rfl, hend⟩ := hstop
        obtain ⟨y, hy, hagree⟩ := agree_at_eof hparse hbody h hst' hend fuel' s loader
        refine ⟨_, y, ?_, hy, hagree⟩
        rw [streamingLoop_more hst rfl, if_pos (by simp [hend])]
      · rw [streamingLoop_more hst rfl, if_neg hstop]
        exact ih _ hless fuel (fuel' + 1) _ p b s loader (by omega) (by omega) rfl hpull
    · have hwhole := h.parse_whole hparse hst
      have hbytes : b.take k = st.buffer.take k := by
        rw [h.bytes_eq, List.take_append_of_le_length (hparse.consumed_le hst)]
      rw [streamingLoop_parsed hst, bufferedLoop_parsed hwhole, hbytes]
      rcases hflow : body s payload (st.buffer.take k) loader with
        stop | ⟨s' | ⟨s', _ | _⟩, loader'⟩
      · exact ⟨_, _, rfl, rfl, .stopped stop⟩
      · have hpos : 0 < k := by
          rcases hparse.consumed_pos hst with hpos | ⟨offset, rfl⟩
          · exact hpos
          · exact absurd hflow ((hbody s offset _ loader).1 s' loader')
        have hle := hparse.consumed_le hst
        have hless : ({ st with parser := p', buffer := st.buffer.drop k } :
            StreamState P R).work bytes < n := by
          rw [← hwork]
          unfold StreamState.work
          simp only [List.length_drop]
          omega
        exact ih _ hless fuel fuel' _ p' _ s' loader' (by omega) (by omega) rfl
          (h.consume hparse hst)
      · exact ⟨_, _, rfl, rfl, .returned _ _ _ ⟨rfl, h.keep⟩⟩
      · exact ⟨_, _, rfl, rfl, .returned _ _ _ ⟨rfl, h.consume hparse hst⟩⟩

end Loops

/-! ## Both parsers -/

theorem leavesAtEnd_headerPayload (env : LoadEnv P V F C) : LeavesAtEnd true env.headerPayload := by
  intro s offset bs loader
  refine ⟨?_, fun _ => rfl⟩
  intro s' loader' h
  cases h

theorem leavesAtEnd_codePayload (env : LoadEnv P V F C) (header : ModuleHeader)
    (base : Option Nat) : LeavesAtEnd false (env.codePayload header base) := by
  intro s offset bs loader
  refine ⟨?_, fun h => absurd h (by decide)⟩
  intro s' loader' h
  cases h

theorem leavesAtEnd_dataPayload (env : LoadEnv P V F C) : LeavesAtEnd false env.dataPayload := by
  intro builder offset bs loader
  refine ⟨?_, fun h => absurd h (by decide)⟩
  intro builder' loader' h
  -- whatever the validator says, the loop does not go on
  simp only [dataPayload, bind, StateT.bind] at h
  cases hvalid : env.validated (.end offset) loader with
  | error stop =>
    rw [hvalid] at h
    cases h
  | ok result =>
    rw [hvalid] at h
    cases h

section Both

variable {A B : Type}

theorem bind_of_returned {x : LoopM V C A} {f : A → LoopM V C B} {loader loader' : Loader V C}
    {a : A} (h : x loader = some (.ok (a, loader'))) : (x >>= f) loader = f a loader' := by
  simp only [bind, StateT.bind, h]
  rfl

theorem bind_of_stopped {x : LoopM V C A} {f : A → LoopM V C B} {loader : Loader V C}
    {stop : LoadStop} (h : x loader = some (.error stop)) :
    (x >>= f) loader = some (.error stop) := by
  simp only [bind, StateT.bind, h]
  rfl

/-- The same module and the same tables, or an error in both, or a panic in both. -/
def SameOutcome (x y : Except LoadStop (A × Loader V C)) : Prop :=
  x = y ∨ (∃ e, x = .error (.error e)) ∧ ∃ e, y = .error (.error e)

theorem work_le {bytes : ByteStream R} {len : Nat} {st : StreamState P R} {p : P}
    {b : List Byte} (h : Aligned env bytes len st p b) : st.work bytes ≤ 2 * len + 1 := by
  have hlen := congrArg List.length h.bytes_eq
  have hle := h.length_le
  rw [List.length_append] at hlen
  unfold StreamState.work
  split <;> omega

/-- The streaming parser fails where the binary parser does. -/
theorem streamingLoop_of_failsAtEof (bytes : ByteStream R) {T : Type} {s : S}
    {st : StreamState P R} (h : FailsAtEof env true (s, st))
    (body : T → Payload → List Byte → LoadM V C (Flow T)) (fuel : Nat) (t : T)
    (loader : Loader V C) :
    ∃ e, env.streamingLoop bytes false body (fuel + 1) st t loader =
      some (.error (.error e)) := by
  obtain ⟨_, heof, e, herror⟩ := h
  exact ⟨_, streamingLoop_error (heof ▸ herror) fuel t loader⟩

/-- What is left of both parsers behind the code section agrees. -/
theorem data_agrees {bytes : ByteStream R} {len : Nat} (hparse : Chunked env.parse)
    {fuel fuel' : Nat} (hfuel : 2 * len + 1 < fuel) (hfuel' : 2 * len + 1 < fuel')
    {st : StreamState P R} {p : P} {b : List Byte} (h : Aligned env bytes len st p b)
    (builder : ModuleBuilder) (loader : Loader V C) :
    ∃ x y, (env.streamingLoop bytes false env.dataPayload fuel st builder >>= fun r =>
          (pure r.1.finish : LoopM V C Module)) loader = some x ∧
        (env.bufferedLoop env.dataPayload fuel' p b builder >>= fun r =>
          (pure r.1.finish : LoopM V C Module)) loader = some y ∧ SameOutcome x y := by
  have hwork := work_le h
  obtain ⟨x, y, hx, hy, hagree⟩ := loops_agree hparse (leavesAtEnd_dataPayload env)
    (st.work bytes) fuel fuel' st p b builder loader (by omega) (by omega) rfl h
  cases hagree with
  | returned a b' loader' hab =>
    refine ⟨_, _, (bind_of_returned hx).trans rfl, (bind_of_returned hy).trans rfl, .inl ?_⟩
    rw [hab.1]
  | failed e e' =>
    exact ⟨_, _, bind_of_stopped hx, bind_of_stopped hy, .inr ⟨⟨e, rfl⟩, e', rfl⟩⟩
  | panicked => exact ⟨_, _, bind_of_stopped hx, bind_of_stopped hy, .inl rfl⟩
  | pending a loader' e hpending => exact absurd hpending.1 (by decide)

/-- What is left of both parsers behind the header agrees. -/
theorem code_agrees {bytes : ByteStream R} {len : Nat} (hparse : Chunked env.parse)
    {fuel fuel' : Nat} (hfuel : 2 * len + 1 < fuel) (hfuel' : 2 * len + 1 < fuel')
    {st : StreamState P R} {p : P} {b : List Byte} (h : Aligned env bytes len st p b)
    (header : ModuleHeader) (base : Option Nat) (builder : ModuleBuilder)
    (loader : Loader V C) :
    ∃ x y, (env.streamingLoop bytes false (env.codePayload header base) fuel st () >>= fun r =>
          env.streamingLoop bytes false env.dataPayload fuel r.2 builder >>= fun r =>
            (pure r.1.finish : LoopM V C Module)) loader = some x ∧
        (env.bufferedLoop (env.codePayload header base) fuel' p b () >>= fun r =>
          env.bufferedLoop env.dataPayload fuel' r.2.1 r.2.2 builder >>= fun r =>
            (pure r.1.finish : LoopM V C Module)) loader = some y ∧ SameOutcome x y := by
  have hwork := work_le h
  obtain ⟨x, y, hx, hy, hagree⟩ := loops_agree hparse (leavesAtEnd_codePayload env header base)
    (st.work bytes) fuel fuel' st p b () loader (by omega) (by omega) rfl h
  cases hagree with
  | returned a b' loader' hab =>
    obtain ⟨x, y, hx', hy', hsame⟩ := data_agrees hparse hfuel hfuel' hab.2 builder loader'
    exact ⟨x, y, (bind_of_returned hx).trans hx', (bind_of_returned hy).trans hy', hsame⟩
  | failed e e' =>
    exact ⟨_, _, bind_of_stopped hx, bind_of_stopped hy, .inr ⟨⟨e, rfl⟩, e', rfl⟩⟩
  | panicked => exact ⟨_, _, bind_of_stopped hx, bind_of_stopped hy, .inl rfl⟩
  | pending a loader' e hpending => exact absurd hpending.1 (by decide)

end Both

/-- With enough fuel both parsers end, and they end alike. -/
theorem parsers_agree (hparse : Chunked env.parse) (bytes : ByteStream R) (stream : R)
    (engine : LoadEngine C) {fuel fuel' : Nat}
    (hfuel : 2 * (bytes.rest stream).length + 1 < fuel)
    (hfuel' : 2 * (bytes.rest stream).length + 1 < fuel') :
    ∃ x y, env.parseStreaming bytes fuel engine stream = some x ∧
      env.parseBuffered fuel' engine (bytes.rest stream) = some y ∧ SameOutcome x y := by
  have h : Aligned env bytes (bytes.rest stream).length ⟨env.newParser, false, [], stream⟩
      env.newParser (bytes.rest stream) :=
    ⟨rfl, fun heof => absurd heof Bool.false_ne_true, rfl, Nat.le_refl _⟩
  have hwork := work_le h
  obtain ⟨x, y, hx, hy, hagree⟩ := loops_agree hparse (leavesAtEnd_headerPayload env) _ fuel fuel'
    _ _ _ {} (env.newLoader engine) (by omega) (by omega) rfl h
  unfold parseStreaming parseBuffered parseStreamingImpl parseBufferedImpl
  cases hagree with
  | returned a b' loader' hab =>
    obtain ⟨s, st⟩ := a
    obtain ⟨s', p, b⟩ := b'
    obtain ⟨hs, halign⟩ := hab
    cases hs
    obtain ⟨x, y, hx', hy', hsame⟩ := code_agrees hparse hfuel hfuel' halign s.header.finish
      s.codeSectionBaseOffset ⟨s.header.finish, {}, s.customSections⟩ loader'
    exact ⟨x, y, (bind_of_returned hx).trans hx', (bind_of_returned hy).trans hy', hsame⟩
  | failed e e' =>
    exact ⟨_, _, bind_of_stopped hx, bind_of_stopped hy, .inr ⟨⟨e, rfl⟩, e', rfl⟩⟩
  | panicked => exact ⟨_, _, bind_of_stopped hx, bind_of_stopped hy, .inl rfl⟩
  | pending a loader' e hpending =>
    -- the error that the header loop has left behind is met by the code loop
    obtain ⟨fuel, rfl⟩ : ∃ k, fuel = k + 1 := ⟨fuel - 1, by omega⟩
    obtain ⟨e', he'⟩ := streamingLoop_of_failsAtEof bytes hpending
      (env.codePayload a.1.header.finish a.1.codeSectionBaseOffset) fuel () loader'
    exact ⟨_, _, (bind_of_returned hx).trans (bind_of_stopped he'), bind_of_stopped hy,
      .inr ⟨⟨e', rfl⟩, e, rfl⟩⟩

/-- However a binary is delivered, the streaming parser returns the module that the buffered parser
returns for the whole of it, with the same tables of the engine, or fails where that one fails. -/
theorem parseStreaming_sameOutcome (env : LoadEnv P V F C) (hparse : Chunked env.parse)
    (bytes : ByteStream R) (stream : R) (engine : LoadEngine C) :
    ∃ n, ∀ fuel fuel', n ≤ fuel → n ≤ fuel' →
      ∃ x y, env.parseStreaming bytes fuel engine stream = some x ∧
        env.parseBuffered fuel' engine (bytes.rest stream) = some y ∧ SameOutcome x y := by
  refine ⟨2 * (bytes.rest stream).length + 2, ?_⟩
  intro fuel fuel' hfuel hfuel'
  exact parsers_agree hparse bytes stream engine (by omega) (by omega)

end LoadEnv

/-! ## Binaries without sections -/

/-- The magic number and the version. -/
def wasmHeader : List Byte := [0x00, 0x61, 0x73, 0x6d, 0x01, 0x00, 0x00, 0x00]

/-- The binary parser for binaries without sections; the state tells whether it is behind the
header. -/
def parseHeaderOnly (behindHeader : Bool) (b : List Byte) (eof : Bool) :
    Except ParserError (Chunk × Bool) :=
  if behindHeader then
    if b ≠ [] then .error ⟨"sections are not supported", 8⟩
    else if eof then .ok (.parsed 0 (.end 8), true)
    else .ok (.needMoreData 1, true)
  else if b.length < 8 then
    if eof then .error ⟨"unexpected end-of-file", b.length⟩
    else .ok (.needMoreData (8 - b.length), false)
  else if b.take 8 = wasmHeader then .ok (.parsed 8 (.version 1 .module_ ⟨4, 8⟩), true)
  else .error ⟨"magic header not detected", 0⟩

/-- What is parsed of a binary without sections. -/
theorem parseHeaderOnly_eq_ok {p p' : Bool} {b : List Byte} {eof : Bool} {n : Nat}
    {payload : Payload} (h : parseHeaderOnly p b eof = .ok (.parsed n payload, p')) :
    p' = true ∧ ((p = true ∧ b = [] ∧ eof = true ∧ n = 0 ∧ payload = .end 8) ∨
      (p = false ∧ 8 ≤ b.length ∧ b.take 8 = wasmHeader ∧ n = 8 ∧
        payload = .version 1 .module_ ⟨4, 8⟩)) := by
  unfold parseHeaderOnly at h
  split at h
  · rename_i hp
    split at h
    · cases h
    · rename_i hb
      split at h
      · rename_i heof
        cases h
        exact ⟨rfl, .inl ⟨hp, not_not.mp hb, heof, rfl, rfl⟩⟩
      · cases h
  · rename_i hp
    split at h
    · split at h <;> cases h
    · split at h
      · rename_i hlen htake
        cases h
        exact ⟨rfl, .inr ⟨by simpa using hp, by omega, htake, rfl, rfl⟩⟩
      · cases h

/-- Where it asks for more. -/
theorem parseHeaderOnly_eq_more {p p' : Bool} {b : List Byte} {eof : Bool} {hint : Nat}
    (h : parseHeaderOnly p b eof = .ok (.needMoreData hint, p')) :
    p' = p ∧ eof = false ∧ 0 < hint ∧ ((p = true ∧ b = []) ∨ (p = false ∧ b.length < 8)) := by
  unfold parseHeaderOnly at h
  split at h
  · rename_i hp
    split at h
    · cases h
    · rename_i hb
      split at h
      · cases h
      · rename_i heof
        cases h
        exact ⟨hp.symm, by simpa using heof, by omega, .inl ⟨hp, not_not.mp hb⟩⟩
  · rename_i hp
    split at h
    · rename_i hlen
      split at h
      · cases h
      · rename_i heof
        cases h
        exact ⟨by simpa using hp, by simpa using heof, by omega, .inr ⟨by simpa using hp, hlen⟩⟩
    · split at h <;> cases h

theorem chunked_parseHeaderOnly : Chunked parseHeaderOnly := by
  constructor
  · intro p b eof n payload p' h
    rcases (parseHeaderOnly_eq_ok h).2 with ⟨_, _, _, rfl, _⟩ | ⟨_, hlen, _, rfl, _⟩
    · exact Nat.zero_le _
    · exact hlen
  · intro p b eof n payload p' h
    rcases (parseHeaderOnly_eq_ok h).2 with ⟨_, _, _, _, rfl⟩ | ⟨_, _, _, rfl, _⟩
    · exact .inr ⟨8, rfl⟩
    · exact .inl (by omega)
  · intro p b n payload p' h c
    obtain ⟨rfl, ⟨_, _, heof, _⟩ | ⟨rfl, hlen, htake, rfl, rfl⟩⟩ := parseHeaderOnly_eq_ok h
    · exact absurd heof (by decide)
    · have hlen' : ¬(b ++ c).length < 8 := by
        rw [List.length_append]
        omega
      simp only [parseHeaderOnly, Bool.false_eq_true, if_false, if_neg hlen',
        List.take_append_of_le_length hlen, htake, if_true]
  · intro p b e h c
    unfold parseHeaderOnly at h ⊢
    split at h
    · rename_i hp
      rw [if_pos hp]
      split at h
      · rename_i hb
        exact ⟨_, if_pos (by simp [hb])⟩
      · cases h
    · rename_i hp
      rw [if_neg hp]
      split at h
      · cases h
      · rename_i hlen
        split at h
        · cases h
        · rename_i htake
          rw [if_neg (by rw [List.length_append]; omega), if_neg
            (by rw [List.take_append_of_le_length (by omega)]; exact htake)]
          exact ⟨_, rfl⟩
  · intro p b hint p' h
    exact (parseHeaderOnly_eq_more h).2.2.1
  · intro p b hint p' h c
    rw [(parseHeaderOnly_eq_more h).1]
  · intro p b hint p' h
    rcases (parseHeaderOnly_eq_more h).2.2.2 with ⟨rfl, rfl⟩ | ⟨rfl, hlen⟩
    · exact .inr ⟨0, 8, true, rfl⟩
    · refine .inl ⟨⟨"unexpected end-of-file", b.length⟩, ?_⟩
      simp only [parseHeaderOnly, Bool.false_eq_true, if_false, if_pos hlen, if_true]
  · intro p b hint p' h
    exact absurd (parseHeaderOnly_eq_more h).2.1 (by decide)
  · intro p b n offset p' h
    obtain ⟨rfl, ⟨rfl, rfl, _, rfl, hend⟩ | ⟨_, _, _, _, hend⟩⟩ := parseHeaderOnly_eq_ok h
    · cases hend
      rfl
    · cases hend

/-- A validator that accepts every payload, and no functions. -/
def headerOnlyEnv : LoadEnv Bool Unit Unit Unit where
  config := {}
  newParser := false
  parse := parseHeaderOnly
  newValidator := ()
  validate := fun _ _ => .ok ()
  codeSectionEntry := fun _ _ => .ok ((), ())
  translate := fun _ _ _ _ _ _ _ => .ok ()

/-- A reader that delivers one byte at a time. -/
def byteByByte : ByteStream (List Byte) where
  read := fun r n => (r.take (min n 1), r.drop (min n 1))
  rest := id
  rest_eq := by simp
  length_le := by
    intro r n
    exact Nat.le_trans (List.length_take_le _ _) (Nat.min_le_left _ _)
  length_pos := by
    intro r n hn hr h
    rcases List.take_eq_nil_iff.mp h with h | h
    · omega
    · exact hr h

theorem parseStreaming_sameOutcome_byteByByte :
    ∃ n, ∀ fuel fuel', n ≤ fuel → n ≤ fuel' →
      ∃ x y, headerOnlyEnv.parseStreaming byteByByte fuel ⟨[], []⟩ wasmHeader = some x ∧
        headerOnlyEnv.parseBuffered fuel' ⟨[], []⟩ wasmHeader = some y ∧
        LoadEnv.SameOutcome x y :=
  headerOnlyEnv.parseStreaming_sameOutcome chunked_parseHeaderOnly byteByByte wasmHeader ⟨[], []⟩

end MotokoDebugger
