import Pwm.Snapshot.EpochReaders

/-!
# The block writer

One thread appends the blocks of a bounded queue to the epoch files and keeps
the first error. Handles talk to it under a lock, one call at a time: an
enqueue waits for room in the queue, a flush and a shutdown wait for the
answer of the thread as well.
-/

namespace Pwm

open BitVec Attempt

def writerCapacity : Nat := 200

inductive WriterQuestion
  | flush
  | shutdown
  deriving DecidableEq

inductive WriterCommand
  | append (blk : Block)
  | ask (question : WriterQuestion)
  deriving DecidableEq

/-- What the call that holds the lock waits for. -/
inductive WriterCall
  | sending (command : WriterCommand)
  | asking (question : WriterQuestion)

def WriterQuestion.disconnected : WriterQuestion → String
  | flush => "block writer flush reply disconnected"
  | shutdown => "block writer shutdown reply disconnected"

/-- The result of a call after the shutdown. -/
def WriterCommand.withoutSender : WriterCommand → Except String Unit
  | append _ => .error "block writer is shut down"
  | ask _ => .ok ()

structure BlockWriter where
  sender : Bool := true
  queue : List WriterCommand := []
  call : Option WriterCall := none
  reply : Option (Except String Unit) := none
  pendingError : Option String := none
  running : Bool := true
  store : EpochStore

/-- What the thread answers: the first error, if there was one. -/
def BlockWriter.answer (w : BlockWriter) : Except String Unit :=
  match w.pendingError with
  | none => .ok ()
  | some err => .error err

inductive WriterEvent
  | called (command : WriterCommand)
  | asked (question : WriterQuestion)
  | returned (command : WriterCommand) (result : Except String Unit)
  | appended (blk : Block)
  | failed (blk : Block) (err : String)
  | skipped (blk : Block)
  | answered (question : WriterQuestion)

/-- An append that fails: it is refused, or the disk fails after some of its writes or within
a line. -/
inductive AppendFails (C : Crypto) (J : BlockJson) (s : EpochStore) (b : Block) :
    String → EpochStore → Prop
  | refused {err : String} {ws : List StoreWrite} :
      appendBlockForEpoch C J s b [] = .error err ws → AppendFails C J s b err (s.applyAll ws)
  | stopped (err : String) (n : Nat) :
      AppendFails C J s b err
        (s.applyAll ((writesOf (appendBlockForEpoch C J s b [])).take n))
  | torn {fileName : String} {line : List U8} (err : String) (n m : Nat) :
      (writesOf (appendBlockForEpoch C J s b []))[n]? = some (.appendLine fileName line) →
      AppendFails C J s b err
        ((s.applyAll ((writesOf (appendBlockForEpoch C J s b [])).take n)).apply
          (.appendLine fileName (line.take m)))

inductive WriterStep (C : Crypto) (J : BlockJson) : BlockWriter → WriterEvent → BlockWriter → Prop
  | called {w : BlockWriter} (command : WriterCommand) :
      w.call = none → w.sender = true →
      WriterStep C J w (.called command)
        { w with
          sender := decide (command ≠ .ask .shutdown)
          call := some (.sending command) }
  | withoutSender {w : BlockWriter} (command : WriterCommand) :
      w.call = none → w.sender = false →
      WriterStep C J w (.returned command command.withoutSender) w
  | enqueued {w : BlockWriter} {blk : Block} :
      w.call = some (.sending (.append blk)) → w.running = true →
      w.queue.length < writerCapacity →
      WriterStep C J w (.returned (.append blk) (.ok ()))
        { w with
          queue := w.queue ++ [.append blk]
          call := none }
  | asked {w : BlockWriter} {question : WriterQuestion} :
      w.call = some (.sending (.ask question)) → w.running = true →
      w.queue.length < writerCapacity →
      WriterStep C J w (.asked question)
        { w with
          queue := w.queue ++ [.ask question]
          call := some (.asking question) }
  | disconnected {w : BlockWriter} {command : WriterCommand} :
      w.call = some (.sending command) → w.running = false →
      WriterStep C J w (.returned command (.error "block writer disconnected"))
        { w with call := none }
  | replied {w : BlockWriter} {question : WriterQuestion} {result : Except String Unit} :
      w.call = some (.asking question) → w.reply = some result →
      WriterStep C J w (.returned (.ask question) result)
        { w with
          call := none
          reply := none }
  | unanswered {w : BlockWriter} {question : WriterQuestion} :
      w.call = some (.asking question) → w.reply = none → w.running = false →
      WriterStep C J w (.returned (.ask question) (.error question.disconnected))
        { w with call := none }
  | appended {w : BlockWriter} {blk : Block} {rest : List WriterCommand} {store : EpochStore} :
      w.running = true → w.queue = .append blk :: rest → w.pendingError = none →
      AppendStep C J w.store blk store →
      WriterStep C J w (.appended blk)
        { w with
          queue := rest
          store := store }
  | failed {w : BlockWriter} {blk : Block} {rest : List WriterCommand} {err : String}
      {store : EpochStore} :
      w.running = true → w.queue = .append blk :: rest → w.pendingError = none →
      AppendFails C J w.store blk err store →
      WriterStep C J w (.failed blk err)
        { w with
          queue := rest
          pendingError := some err
          store := store }
  | skipped {w : BlockWriter} {blk : Block} {rest : List WriterCommand} {err : String} :
      w.running = true → w.queue = .append blk :: rest → w.pendingError = some err →
      WriterStep C J w (.skipped blk) { w with queue := rest }
  | answered {w : BlockWriter} {question : WriterQuestion} {rest : List WriterCommand} :
      w.running = true → w.queue = .ask question :: rest →
      WriterStep C J w (.answered question)
        { w with
          queue := rest
          reply := some w.answer
          running := decide (question ≠ .shutdown) }

/-- The block of an enqueue that returns without an error. -/
def WriterEvent.enqueued : WriterEvent → Option Block
  | .returned (.append blk) (.ok ()) => some blk
  | _ => none

/-- The blocks that a queue still holds. -/
def WriterCommand.block : WriterCommand → Option Block
  | .append blk => some blk
  | .ask _ => none

/-! ## What successful appends leave -/

/-- The file that a block goes to. -/
def blockFileName (b : Block) : Option String :=
  (epochIdx b.hdr.height).toOption.map epochFileName

/-- The blocks are in the store, each once and in their order, on top of what was there; the
manifest says that the last one is the tip, and from an empty store all are loaded. -/
structure Durable (C : Crypto) (J : BlockJson) (start : EpochStore) (blocks : List Block)
    (s : EpochStore) : Prop where
  files : ∀ fileName : String, (s.files fileName).getD [] = (start.files fileName).getD [] ++
    blockFile J (blocks.filter fun b => decide (blockFileName b = some fileName))
  manifest : ∀ b, blocks.getLast? = some b → ∃ man : EpochManifest, s.manifest = some man ∧
    man.canonicalH = b.hdr.height ∧ man.tipHash = hexEncode (hdrHash C b.hdr)
  loads : start = EpochStore.empty → (∀ b ∈ blocks, J.Writes b) → ConsecutiveHeights blocks →
    loadBlocksFromEpochs J s = .ok blocks

section Appends

variable {C : Crypto} {J : BlockJson} {start s s' : EpochStore} {b : Block} {blocks : List Block}

theorem checkContinuity_ok {fileName : String} {er : EpochRange} {h : U64} {lastH : Option U64}
    {ws ws' : List StoreWrite}
    (hok : checkContinuity s fileName er h lastH ws = .ok () ws') : ws' = ws := by
  cases lastH with
  | none =>
      rcases onlyIf_ok_iff.mp hok with ⟨-, hthrow⟩ | ⟨-, hsame⟩
      · obtain ⟨_, _, -, hthrow⟩ := bind_ok_iff.mp hthrow
        exact (throw_ok_iff.mp hthrow).elim
      · exact hsame.symm
  | some tailH =>
      obtain ⟨prevH, ws₁, hprev, hsame⟩ := bind_ok_iff.mp hok
      rw [← (require_ok_iff.mp hsame).2, (orThrow_ok_iff.mp hprev).2]

/-- A successful append adds the line of the block to its file and names it as the tip. -/
theorem AppendStep.store_eq (h : AppendStep C J s b s') :
    ∃ (fileName : String) (man : EpochManifest), blockFileName b = some fileName ∧
      man.canonicalH = b.hdr.height ∧ man.tipHash = hexEncode (hdrHash C b.hdr) ∧
      s' = (s.apply (.appendLine fileName (J.line b ++ [newline]))).apply (.replaceManifest man) := by
  obtain ⟨ws, happend, rfl⟩ := h
  simp only [appendBlockForEpoch] at happend
  obtain ⟨eidx, ws₁, hidx, happend⟩ := bind_ok_iff.mp happend
  obtain ⟨hepoch, rfl⟩ := liftExcept_ok_iff.mp hidx
  obtain ⟨lastH, ws₂, hread, happend⟩ := bind_ok_iff.mp happend
  obtain ⟨-, rfl⟩ := liftExcept_ok_iff.mp hread
  obtain ⟨_, ws₃, hcheck, happend⟩ := bind_ok_iff.mp happend
  obtain rfl := checkContinuity_ok hcheck
  obtain ⟨firstH, ws₄, hrow, happend⟩ := bind_ok_iff.mp happend
  obtain ⟨-, rfl⟩ := liftExcept_ok_iff.mp hrow
  obtain ⟨_, ws₅, hline, happend⟩ := bind_ok_iff.mp happend
  rw [logWrite_ok] at hline
  obtain ⟨-, rfl⟩ := EStateM.Result.ok.inj hline
  obtain ⟨_, ws₆, hschema, happend⟩ := bind_ok_iff.mp happend
  obtain ⟨-, rfl⟩ := liftExcept_ok_iff.mp hschema
  rw [logWrite_ok] at happend
  obtain ⟨-, rfl⟩ := EStateM.Result.ok.inj happend
  refine ⟨epochFileName eidx, _, ?_, rfl, rfl, rfl⟩
  rw [blockFileName, hepoch]
  rfl

theorem run_append_files (hrun : Run (AppendStep C J) start blocks s) (fileName : String) :
    (s.files fileName).getD [] = (start.files fileName).getD [] ++
      blockFile J (blocks.filter fun b => decide (blockFileName b = some fileName)) := by
  induction hrun with
  | nil => exact (List.append_nil _).symm
  | @snoc mid next blocks b _ hstep ih =>
      obtain ⟨name, man, hname, -, -, rfl⟩ := hstep.store_eq
      rw [EpochStore.files_replaceManifest, List.filter_append]
      by_cases hsame : fileName = name
      · subst hsame
        rw [EpochStore.files_appendLine_self, Option.getD_some, ih,
          List.filter_cons_of_pos (by simpa using hname), List.filter_nil, blockFile_concat,
          List.append_assoc, List.append_assoc]
      · have hother : ¬ decide (blockFileName b = some fileName) = true := by
          rw [decide_eq_true_eq, hname]
          exact fun h => hsame (Option.some.inj h).symm
        have hnone : List.filter (fun b => decide (blockFileName b = some fileName)) [b] = [] :=
          List.filter_cons_of_neg hother
        rw [EpochStore.files_appendLine_of_ne hsame, ih, hnone, List.append_nil]

/-- What appends that all succeed leave. -/
theorem run_append_durable (hrun : Run (AppendStep C J) start blocks s) :
    Durable C J start blocks s := by
  refine ⟨run_append_files hrun, fun b hlast => ?_, ?_⟩
  · cases hrun with
    | nil => cases hlast
    | @snoc mid _ blocks b' _ hstep =>
        rw [List.getLast?_concat] at hlast
        obtain rfl := Option.some.inj hlast
        obtain ⟨name, man, -, hheight, htip, rfl⟩ := hstep.store_eq
        exact ⟨man, rfl, hheight, htip⟩
  · rintro rfl hw hc
    exact (run_stores hrun hw hc).load hw hc

end Appends

/-! ## Runs of the writer -/

section Writer

variable {C : Crypto} {J : BlockJson} {start : EpochStore} {w w' : BlockWriter}
  {es : List WriterEvent} {e : WriterEvent}

/-- The blocks whose enqueue returned without an error. -/
def enqueuedBlocks (es : List WriterEvent) : List Block :=
  es.filterMap WriterEvent.enqueued

/-- No call waits for an answer. -/
structure BlockWriter.Calm (w : BlockWriter) : Prop where
  queue : ∀ question, WriterCommand.ask question ∉ w.queue
  reply : w.reply = none

/-- A shutdown returned an error. -/
def ShutdownFailed (es : List WriterEvent) : Prop :=
  ∃ err, WriterEvent.returned (.ask .shutdown) (.error err) ∈ es

/-- What the call that holds the lock finds. -/
def CallState (es : List WriterEvent) (w : BlockWriter) : Prop :=
  match w.call with
  | none => w.Calm ∧
      (w.sender = false → ShutdownFailed es ∨ w.queue = [] ∧ w.pendingError = none)
  | some (.sending command) => w.Calm ∧ (w.sender = false → command = .ask .shutdown)
  | some (.asking question) => (w.sender = false → question = .shutdown) ∧
      ((∃ front : List WriterCommand, (∀ q, WriterCommand.ask q ∉ front) ∧
        w.queue = front ++ [.ask question] ∧ w.reply = none ∧ w.running = true) ∨
        w.queue = [] ∧ w.reply = some w.answer)

/-- As long as there is no error the blocks are in the store up to those in the queue. -/
structure WriterInv (C : Crypto) (J : BlockJson) (start : EpochStore) (es : List WriterEvent)
    (w : BlockWriter) : Prop where
  written : w.pendingError = none → ∃ done, Run (AppendStep C J) start done w.store ∧
    enqueuedBlocks es = done ++ w.queue.filterMap WriterCommand.block
  call : CallState es w

theorem enqueuedBlocks_append (es : List WriterEvent) (e : WriterEvent) :
    enqueuedBlocks (es ++ [e]) = enqueuedBlocks es ++ e.enqueued.toList := by
  rw [enqueuedBlocks, List.filterMap_append, enqueuedBlocks]
  cases h : e.enqueued <;> simp [h]

theorem enqueuedBlocks_same (h : e.enqueued = none) :
    enqueuedBlocks (es ++ [e]) = enqueuedBlocks es := by
  rw [enqueuedBlocks_append, h, Option.toList_none, List.append_nil]

theorem ShutdownFailed.concat (h : ShutdownFailed es) (e : WriterEvent) :
    ShutdownFailed (es ++ [e]) := by
  obtain ⟨err, hmem⟩ := h
  exact ⟨err, List.mem_append_left _ hmem⟩

/-- A call is handled the same by a longer history. -/
theorem CallState.concat (h : CallState es w) (e : WriterEvent) : CallState (es ++ [e]) w := by
  unfold CallState at h ⊢
  cases hcall : w.call with
  | none =>
      rw [hcall] at h
      exact ⟨h.1, fun hsender => (h.2 hsender).imp_left fun hfailed => hfailed.concat e⟩
  | some call =>
      rw [hcall] at h
      cases call <;> exact h

/-- The thread takes a block from the queue. -/
theorem CallState.taken {blk : Block} {rest : List WriterCommand} {pendingError : Option String}
    {store : EpochStore} (h : CallState es w) (hqueue : w.queue = .append blk :: rest) :
    CallState es
      { w with
        queue := rest
        pendingError := pendingError
        store := store } := by
  have hrest : w.Calm → ∀ question, WriterCommand.ask question ∉ rest := fun h question hmem =>
    h.queue question (hqueue ▸ List.mem_cons_of_mem _ hmem)
  unfold CallState at h ⊢
  cases hcall : w.call with
  | none =>
      rw [hcall] at h
      refine ⟨⟨hrest h.1, h.1.reply⟩, fun hsender => (h.2 hsender).imp_right fun hempty => ?_⟩
      rw [hqueue] at hempty
      cases hempty.1
  | some call =>
      rw [hcall] at h
      cases call with
      | sending command => exact ⟨⟨hrest h.1, h.1.reply⟩, h.2⟩
      | asking question =>
          refine ⟨h.1, .inl ?_⟩
          rcases h.2 with ⟨front, hfront, hlast, hreply, hrun⟩ | ⟨hempty, -⟩
          · rw [hqueue] at hlast
            cases front with
            | nil => cases (List.cons.inj hlast).1
            | cons first front =>
                exact ⟨front, fun q hmem => hfront q (List.mem_cons_of_mem _ hmem),
                  (List.cons.inj hlast).2, hreply, hrun⟩
          · rw [hqueue] at hempty
            cases hempty

/-- Handles that take the lock, find room, give up or go. -/
theorem WriterInv.step (h : WriterInv C J start es w) (hstep : WriterStep C J w e w') :
    WriterInv C J start (es ++ [e]) w' := by
  have hstate := h.call
  unfold CallState at hstate
  cases hstep with
  | called command hcall hsender =>
      rw [hcall] at hstate
      refine ⟨fun hnone => ?_, ⟨hstate.1.queue, hstate.1.reply⟩, fun hlast => ?_⟩
      · rw [enqueuedBlocks_same rfl]
        exact h.written hnone
      · exact not_not.mp (decide_eq_false_iff_not.mp hlast)
  | withoutSender command hcall hsender =>
      refine ⟨fun hnone => ?_, h.call.concat _⟩
      rw [enqueuedBlocks_same (by cases command <;> rfl)]
      exact h.written hnone
  | @enqueued blk hcall hrunning hroom =>
      rw [hcall] at hstate
      refine ⟨fun hnone => ?_, ⟨fun question hmem => ?_, hstate.1.reply⟩, fun hsender => ?_⟩
      · obtain ⟨done, hrun, hblocks⟩ := h.written hnone
        refine ⟨done, hrun, ?_⟩
        rw [enqueuedBlocks_append, hblocks, List.filterMap_append, List.append_assoc]
        rfl
      · rcases List.mem_append.mp hmem with hmem | hmem
        · exact hstate.1.queue question hmem
        · cases List.mem_singleton.mp hmem
      · cases hstate.2 hsender
  | @asked question hcall hrunning hroom =>
      rw [hcall] at hstate
      refine ⟨fun hnone => ?_, fun hsender => ?_, .inl
        ⟨w.queue, hstate.1.queue, rfl, hstate.1.reply, hrunning⟩⟩
      · obtain ⟨done, hrun, hblocks⟩ := h.written hnone
        refine ⟨done, hrun, ?_⟩
        rw [enqueuedBlocks_same rfl, hblocks, List.filterMap_append]
        exact congrArg _ (List.append_nil _).symm
      · exact (WriterCommand.ask.inj (hstate.2 hsender))
  | @disconnected command hcall hrunning =>
      rw [hcall] at hstate
      refine ⟨fun hnone => ?_, ⟨hstate.1.queue, hstate.1.reply⟩, fun hsender => .inl ?_⟩
      · rw [enqueuedBlocks_same (by cases command <;> rfl)]
        exact h.written hnone
      · rw [hstate.2 hsender]
        exact ⟨_, List.mem_append_right _ List.mem_cons_self⟩
  | @replied question result hcall hreply =>
      rw [hcall] at hstate
      obtain ⟨hlast, ⟨front, -, -, hnone, -⟩ | ⟨hempty, hanswer⟩⟩ := hstate
      · rw [hreply] at hnone
        cases hnone
      obtain rfl := Option.some.inj (hreply.symm.trans hanswer)
      refine ⟨fun hnone => ?_, ⟨fun q hmem => ?_, rfl⟩, fun hsender => ?_⟩
      · rw [enqueuedBlocks_same (by cases question <;> rfl)]
        exact h.written hnone
      · rw [hempty] at hmem
        cases hmem
      · obtain rfl := hlast hsender
        cases hpending : w.pendingError with
        | none => exact .inr ⟨hempty, rfl⟩
        | some err =>
            refine .inl ⟨err, List.mem_append_right _ ?_⟩
            rw [BlockWriter.answer, hpending]
            exact List.mem_cons_self
  | @unanswered question hcall hreply hrunning =>
      rw [hcall] at hstate
      obtain ⟨-, ⟨front, -, -, -, hrun⟩ | ⟨-, hanswer⟩⟩ := hstate
      · exact nomatch hrunning.symm.trans hrun
      · exact nomatch hreply.symm.trans hanswer
  | appended hrunning hqueue hpending happend =>
      refine ⟨fun _ => ?_, (h.call.taken hqueue).concat _⟩
      obtain ⟨done, hrun, hblocks⟩ := h.written hpending
      refine ⟨done ++ [_], hrun.snoc happend, ?_⟩
      rw [enqueuedBlocks_same rfl, hblocks, hqueue, List.append_assoc]
      rfl
  | failed hrunning hqueue hpending happend =>
      refine ⟨fun hnone => ?_, (h.call.taken hqueue).concat _⟩
      cases hnone
  | skipped hrunning hqueue hpending =>
      refine ⟨fun hnone => ?_, (h.call.taken hqueue).concat _⟩
      exact nomatch hpending.symm.trans hnone
  | @answered question rest hrunning hqueue =>
      have hask : WriterCommand.ask question ∈ w.queue := hqueue ▸ List.mem_cons_self
      refine ⟨fun hnone => ?_, ?_⟩
      · obtain ⟨done, hrun, hblocks⟩ := h.written hnone
        refine ⟨done, hrun, ?_⟩
        rw [enqueuedBlocks_same rfl, hblocks, hqueue]
        rfl
      unfold CallState
      cases hcall : w.call with
      | none =>
          rw [hcall] at hstate
          exact absurd hask (hstate.1.queue question)
      | some call =>
          rw [hcall] at hstate
          cases call with
          | sending command => exact absurd hask (hstate.1.queue question)
          | asking q =>
              refine ⟨fun hsender => hstate.1 hsender, .inr ⟨?_, rfl⟩⟩
              rcases hstate.2 with ⟨front, hfront, hlast, -⟩ | ⟨hempty, -⟩
              · rw [hqueue] at hlast
                cases front with
                | nil => exact (List.cons.inj hlast).2
                | cons first front =>
                    rw [← (List.cons.inj hlast).1] at hfront
                    exact absurd List.mem_cons_self (hfront question)
              · rw [hqueue] at hempty
                cases hempty

theorem writerInv_start : WriterInv C J start [] { store := start } := by
  refine ⟨fun _ => ⟨[], .nil start, rfl⟩, ⟨fun question hmem => ?_, rfl⟩, fun hsender => ?_⟩
  · cases hmem
  · cases hsender

theorem run_writerInv (hrun : Run (WriterStep C J) { store := start } es w) :
    WriterInv C J start es w :=
  @Run.history_invariant _ _ _ _ _ _ (fun es w => WriterInv C J start es w)
    (fun _ _ _ _ h hstep => h.step hstep) hrun writerInv_start

/-- A flush that returns without an error finds all blocks in the store, unless a shutdown has
returned one. -/
theorem flush_durable
    (hrun : Run (WriterStep C J) { store := start } (es ++ [.returned (.ask .flush) (.ok ())]) w)
    (hshutdown : ¬ ShutdownFailed es) : Durable C J start (enqueuedBlocks es) w.store := by
  obtain ⟨before, hbefore, hstep⟩ := hrun.unsnoc
  have hinv := run_writerInv hbefore
  have hstate := hinv.call
  unfold CallState at hstate
  have hdone : ∀ w : BlockWriter, WriterInv C J start es w → w.queue = [] → w.pendingError = none →
      Durable C J start (enqueuedBlocks es) w.store := by
    intro w h hqueue hnone
    obtain ⟨done, hrun, hblocks⟩ := h.written hnone
    rw [hblocks, hqueue, List.filterMap_nil, List.append_nil]
    exact run_append_durable hrun
  generalize hresult : (Except.ok () : Except String Unit) = result at hstep
  cases hstep with
  | withoutSender _ hcall hsender =>
      rw [hcall] at hstate
      rcases hstate.2 hsender with hfailed | ⟨hempty, hnone⟩
      · exact absurd hfailed hshutdown
      · exact hdone _ hinv hempty hnone
  | disconnected => cases hresult
  | replied hcall hreply =>
      rw [hcall] at hstate
      rcases hstate.2 with ⟨_, -, -, hnone, -⟩ | ⟨hempty, hanswer⟩
      · exact nomatch hreply.symm.trans hnone
      refine hdone before hinv hempty ?_
      cases hpending : before.pendingError with
      | none => rfl
      | some err =>
          rw [hreply, BlockWriter.answer, hpending, ← hresult] at hanswer
          cases hanswer
  | unanswered => cases hresult

/-- Once an append has failed the store stays as it is. -/
theorem run_after_failed {err : String} (hrun : Run (WriterStep C J) w es w')
    (hpending : w.pendingError = some err) :
    w'.store = w.store ∧ ∀ blk, WriterEvent.appended blk ∉ es := by
  have hkeeps : w'.pendingError = some err ∧ w'.store = w.store ∧
      ∀ blk, WriterEvent.appended blk ∉ es := by
    induction hrun with
    | nil => exact ⟨hpending, rfl, fun _ hmem => nomatch hmem⟩
    | @snoc mid next front e _ hstep ih =>
        obtain ⟨hpend, hstore, hnone⟩ := ih
        have hlast : (∀ blk, e ≠ .appended blk) →
            ∀ blk, WriterEvent.appended blk ∉ front ++ [e] := by
          intro hother blk hmem
          rcases List.mem_append.mp hmem with hmem | hmem
          · exact hnone blk hmem
          · exact hother blk (List.mem_singleton.mp hmem).symm
        cases hstep with
        | appended _ _ hfree _ => exact nomatch hpend.symm.trans hfree
        | failed _ _ hfree _ => exact nomatch hpend.symm.trans hfree
        | _ => exact ⟨hpend, hstore, hlast fun blk h => nomatch h⟩
  exact hkeeps.2

/-- In a run without a flush after a shutdown that failed, every flush that returns without an
error finds all blocks in the store; after the first append that fails none is written. -/
theorem writer_durable (hrun : Run (WriterStep C J) { store := start } es w)
    (hshutdown : ∀ before result after, es = before ++ .returned (.ask .flush) result :: after →
      ¬ ShutdownFailed before) :
    (∀ before after, es = before ++ .returned (.ask .flush) (.ok ()) :: after → ∃ mid,
      Run (WriterStep C J) { store := start } (before ++ [.returned (.ask .flush) (.ok ())]) mid ∧
      Run (WriterStep C J) mid after w ∧
      Durable C J start (enqueuedBlocks before) mid.store) ∧
    ∀ before blk err after, es = before ++ .failed blk err :: after → ∃ mid,
      Run (WriterStep C J) { store := start } (before ++ [.failed blk err]) mid ∧
      Run (WriterStep C J) mid after w ∧
      w.store = mid.store ∧ ∀ blk', WriterEvent.appended blk' ∉ after := by
  constructor
  · intro before after hes
    rw [hes, List.append_cons] at hrun
    obtain ⟨mid, hfirst, hrest⟩ := hrun.split
    exact ⟨mid, hfirst, hrest, flush_durable hfirst (hshutdown before (.ok ()) after hes)⟩
  · intro before blk err after hes
    rw [hes, List.append_cons] at hrun
    obtain ⟨mid, hfirst, hrest⟩ := hrun.split
    obtain ⟨_, -, hstep⟩ := hfirst.unsnoc
    have hpending : mid.pendingError = some err := by
      cases hstep
      rfl
    exact ⟨mid, hfirst, hrest, run_after_failed hrest hpending⟩

end Writer

/-! ## A flush after a shutdown that failed -/

namespace FlushAfterShutdown

open TornAppend WriterEvent WriterCommand WriterQuestion

def crypto : Crypto := .ofTables [] []

def append (height : U64) : WriterCommand := .append (blockAt height)

/-- The first block is enqueued and flushed. -/
def flushed : List WriterEvent :=
  [called (append 1#64), returned (append 1#64) (.ok ()), appended (blockAt 1#64),
    called (ask flush), asked flush, answered flush, returned (ask flush) (.ok ())]

def gapText : String := "epoch append gap: first height in file must be 1, got 2"

/-- The second block is enqueued without the first one. -/
def refused : List WriterEvent :=
  [called (append 2#64), returned (append 2#64) (.ok ()), failed (blockAt 2#64) gapText,
    called (ask shutdown), asked shutdown, answered shutdown,
    returned (ask shutdown) (.error gapText)]

def stored : EpochStore := EpochStore.empty.applyAll (appendWrites crypto json [] (blockAt 1#64))

theorem run_flushed : Run (WriterStep crypto json) { store := EpochStore.empty } flushed
    { store := stored } := by
  have hempty : Stores crypto json EpochStore.empty [] := stores_empty
  have happend : AppendStep crypto json EpochStore.empty (blockAt 1#64) stored :=
    appendStep_of_readable hempty (fun _ hb => nomatch hb)
      (ConsecutiveHeights.of_append consecutive) (nextReadable_nil json)
  have hroom : 0 < writerCapacity := by decide
  refine ((((((Run.single (.called (append 1#64) rfl rfl)).snoc (.enqueued rfl rfl hroom)).snoc
    (.appended rfl rfl rfl happend)).snoc (.called (ask flush) rfl rfl)).snoc
      (.asked rfl rfl hroom)).snoc (.answered rfl rfl)).snoc (.replied rfl rfl)

theorem run_refused : ∃ w : BlockWriter, w.call = none ∧ w.sender = false ∧
    w.store = EpochStore.empty ∧
    Run (WriterStep crypto json) { store := EpochStore.empty } refused w := by
  have hfails : AppendFails crypto json EpochStore.empty (blockAt 2#64) gapText EpochStore.empty :=
    @AppendFails.refused crypto json EpochStore.empty (blockAt 2#64) gapText [] rfl
  have hroom : 0 < writerCapacity := by decide
  refine ⟨_, ?_, ?_, ?_, ((((((Run.single (.called (append 2#64) rfl rfl)).snoc
    (.enqueued rfl rfl hroom)).snoc (.failed rfl rfl rfl hfails)).snoc
      (.called (ask shutdown) rfl rfl)).snoc (.asked rfl rfl hroom)).snoc
        (.answered rfl rfl)).snoc (.replied rfl rfl)⟩ <;> rfl

end FlushAfterShutdown

theorem writer_durable_flushed :
    (∀ before after, FlushAfterShutdown.flushed =
        before ++ .returned (.ask .flush) (.ok ()) :: after → ∃ mid,
      Run (WriterStep FlushAfterShutdown.crypto TornAppend.json) { store := EpochStore.empty }
        (before ++ [.returned (.ask .flush) (.ok ())]) mid ∧
      Run (WriterStep FlushAfterShutdown.crypto TornAppend.json) mid after
        { store := FlushAfterShutdown.stored } ∧
      Durable FlushAfterShutdown.crypto TornAppend.json EpochStore.empty (enqueuedBlocks before)
        mid.store) ∧
    ∀ before blk err after,
        FlushAfterShutdown.flushed = before ++ .failed blk err :: after → ∃ mid,
      Run (WriterStep FlushAfterShutdown.crypto TornAppend.json) { store := EpochStore.empty }
        (before ++ [.failed blk err]) mid ∧
      Run (WriterStep FlushAfterShutdown.crypto TornAppend.json) mid after
        { store := FlushAfterShutdown.stored } ∧
      FlushAfterShutdown.stored = mid.store ∧ ∀ blk', WriterEvent.appended blk' ∉ after := by
  refine writer_durable FlushAfterShutdown.run_flushed fun before result after hes hfailed => ?_
  obtain ⟨err, hmem⟩ := hfailed
  have hin : WriterEvent.returned (.ask .shutdown) (.error err) ∈ FlushAfterShutdown.flushed := by
    rw [hes]
    exact List.mem_append_left _ hmem
  simp [FlushAfterShutdown.flushed, FlushAfterShutdown.append] at hin

/-- The flush returns without an error although the block was never written. -/
theorem refused_flush_not_durable :
    ∃ w, Run (WriterStep FlushAfterShutdown.crypto TornAppend.json) { store := EpochStore.empty }
      (FlushAfterShutdown.refused ++ [.returned (.ask .flush) (.ok ())]) w ∧
      ¬ Durable FlushAfterShutdown.crypto TornAppend.json EpochStore.empty
        (enqueuedBlocks FlushAfterShutdown.refused) w.store := by
  obtain ⟨w, hcall, hsender, hstore, hrun⟩ := FlushAfterShutdown.run_refused
  refine ⟨w, hrun.snoc (.withoutSender (.ask .flush) hcall hsender), fun hdurable => ?_⟩
  have hblocks : enqueuedBlocks FlushAfterShutdown.refused = [TornAppend.blockAt 2#64] := rfl
  have hfile := hdurable.files (epochFileName 0#64)
  have hname : blockFileName (TornAppend.blockAt 2#64) = some (epochFileName 0#64) := rfl
  have hfilter : List.filter (fun b => decide (blockFileName b = some (epochFileName 0#64)))
      [TornAppend.blockAt 2#64] = [TornAppend.blockAt 2#64] :=
    List.filter_cons_of_pos (decide_eq_true hname)
  have hline : newline ∈ blockFile TornAppend.json ([] ++ [TornAppend.blockAt 2#64]) := by
    rw [blockFile_concat]
    exact List.mem_append_right _ List.mem_cons_self
  rw [hstore, hblocks, hfilter] at hfile
  rw [List.nil_append, List.self_eq_append_right.mp hfile] at hline
  cases hline

end Pwm
