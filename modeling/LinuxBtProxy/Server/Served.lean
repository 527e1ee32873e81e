import LinuxBtProxy.Server.Trace

/-!
# LinuxBtProxy.Server.Served

The law of the trace over a sequence of inputs on an open stream: it holds of
the inputs that are served, up to a request that does not parse, or a call on
the socket fails and the trace is cut there (`follows_serveInput`).  The law ends
with a `DisconnectRequest`, and the acts before it are those of the run up to it
(`beforeDisconnect_run`).
-/

namespace LinuxBtProxy

variable [Protobuf]

/-! ## A sequence of inputs -/

/-- A part of a trace: its first acts, or these with a write behind them that
fails in place of the next one. -/
def CutOf (law part : List Act) : Prop :=
  part <+: law ∨
    ∃ front frame, part = front ++ [.write frame false] ∧ front ++ [.write frame true] <+: law

omit [Protobuf] in
/-- A part of a law is one behind common acts too. -/
theorem CutOf.append {law part : List Act} (h : CutOf law part) (acts : List Act) :
    CutOf (acts ++ law) (acts ++ part) := by
  obtain h | ⟨front, frame, rfl, h⟩ := h
  · exact .inl ((List.prefix_append_right_inj acts).mpr h)
  · refine .inr ⟨acts ++ front, frame, (List.append_assoc ..).symm, ?_⟩
    rw [List.append_assoc]
    exact (List.prefix_append_right_inj acts).mpr h

/-- The first input is served, and those behind it unless it is refused. -/
theorem served_cons (ctx : ProxyContext) (a : Act) (acts : List Act) :
    served ctx (a :: acts) = a :: if a.refused ctx then [] else served ctx acts := by
  rw [served, Reactive.taken_cons]
  cases a.refused ctx <;> rfl

/-- A sequence of inputs on an open stream: the law holds of the inputs that are
served, or a call on the socket fails and the trace ends there. -/
inductive Follows (env : Env) (ctx : ProxyContext) (past : List Act) (c : Client)
    (acts : List Act) : Client × Option Exit → Prop
  | whole {c' exit}
      (htrace : c'.sock.trace = c.sock.trace ++ lawfulTrace ctx past (served ctx acts))
      (hflags : c'.flags = (current (past ++ served ctx acts)).flags)
      (hexit : exit = refusal ctx acts) : Follows env ctx past c acts (c', exit)
  | failed {c' n part} (hcalls : c'.sock.calls = n + 1) (hio : env.io n = false)
      (hcut : CutOf (lawfulTrace ctx past (served ctx acts)) part)
      (htrace : c'.sock.trace = c.sock.trace ++ part) :
      Follows env ctx past c acts (c', some (.err .socket))

/-- By induction on the inputs: the flags are those that the history gives, and a
call that fails is the last one. -/
theorem follows_serveInput {env : Env} (hfast : env.FailsFast) (ctx : ProxyContext)
    {acts : List Act} (hacts : ∀ a ∈ acts, a.isInput = true ∧ a.isDisconnect = false) {c : Client}
    (hopen : c.sock.shut = false) {past : List Act} (hflags : c.flags = (current past).flags) :
    Follows env ctx past c acts (Reactive.run (serveInput env ctx) c acts) := by
  induction acts generalizing c past with
  | nil =>
      have hserved : served ctx [] = [] := rfl
      refine .whole ?_ ?_ rfl
      · rw [hserved, lawfulTrace, List.append_nil]
      · rw [hserved, List.append_nil]
        exact hflags
  | cons a acts ih =>
      obtain ⟨⟨ha, hne⟩, hacts⟩ := List.forall_mem_cons.mp hacts
      have hr := serveInput_replied hfast ctx hopen hflags ha hne
      have hserved := served_cons ctx a acts
      generalize hrun : serveInput env ctx c a = r at hr
      cases hr with
      | @whole c' exit htrace hflags' hexit =>
          cases href : a.refused ctx with
          | true =>
              obtain rfl : exit = some (.err .parse) := by rw [hexit, href]; rfl
              rw [Reactive.run_cons_of_stop hrun]
              refine .whole ?_ ?_ ?_
              · rw [htrace, hserved, href]
                simp [lawfulTrace]
              · rw [hserved, href]
                exact hflags'
              · simp [refusal, href]
          | false =>
              obtain rfl : exit = none := by rw [hexit, href]; rfl
              have hopen' : c'.sock.shut = false := by
                rw [Socket.shut, htrace, List.any_append, ← Socket.shut, hopen]
                cases a <;> simp_all [Act.isShutdown, Act.isInput]
              rw [href] at hserved
              rw [Reactive.run_cons_of_continue hrun]
              have htail := ih hacts hopen' hflags'
              generalize Reactive.run (serveInput env ctx) c' acts = r at htail
              cases htail with
              | whole htrace' hflags'' hexit' =>
                  refine .whole ?_ ?_ ?_
                  · rw [htrace', htrace, hserved]
                    simp [lawfulTrace]
                  · rw [hserved]
                    simpa using hflags''
                  · simpa [refusal, href] using hexit'
              | failed hcalls hio hcut htrace' =>
                  rw [htrace, List.append_assoc] at htrace'
                  refine .failed hcalls hio ?_ htrace'
                  rw [hserved]
                  exact hcut.append _
      | @failed c' n tail hcalls hio htail htrace =>
          rw [Reactive.run_cons_of_stop hrun]
          refine .failed hcalls hio ?_ htrace
          rw [hserved, lawfulTrace]
          obtain rfl | ⟨frame, hreplies, rfl⟩ := htail
          · exact .inl (by simp)
          · exact .inr ⟨[a], frame, rfl, by simp [hreplies]⟩

/-! ## Up to the disconnect -/

section

omit [Protobuf]

/-- Other acts stand before the disconnect. -/
theorem beforeDisconnect_cons {a : Act} (h : a.isDisconnect = false) (acts : List Act) :
    beforeDisconnect (a :: acts) = a :: beforeDisconnect acts := by
  simp [beforeDisconnect, h]

/-- Nothing stands before a disconnect at the front. -/
theorem beforeDisconnect_of_disconnect {a : Act} (h : a.isDisconnect = true) (acts : List Act) :
    beforeDisconnect (a :: acts) = [] := by
  simp [beforeDisconnect, h]

/-- A trace without a disconnect stands before it. -/
theorem beforeDisconnect_append_of_none {trace : List Act}
    (h : trace.any Act.isDisconnect = false) (acts : List Act) :
    beforeDisconnect (trace ++ acts) = trace ++ beforeDisconnect acts := by
  unfold beforeDisconnect
  rw [List.takeWhile_append_of_pos]
  simpa using h

/-- Without a disconnect everything stands before it. -/
theorem beforeDisconnect_of_none {trace : List Act} (h : trace.any Act.isDisconnect = false) :
    beforeDisconnect trace = trace := by
  have happ := beforeDisconnect_append_of_none h []
  simpa [beforeDisconnect] using happ

/-- The acts before the disconnect come first. -/
theorem beforeDisconnect_sub (acts : List Act) : beforeDisconnect acts <+: acts :=
  List.takeWhile_prefix _

/-- There is no disconnect before the disconnect. -/
theorem not_isDisconnect_of_mem {acts : List Act} {a : Act} (h : a ∈ beforeDisconnect acts) :
    a.isDisconnect = false := by
  have hall : (beforeDisconnect acts).all (fun a => !a.isDisconnect) = true := List.all_takeWhile
  simpa using List.all_eq_true.mp hall a h

/-- Only an input is a disconnect. -/
theorem isDisconnect_of_no_input {a : Act} (h : a.isInput = false) : a.isDisconnect = false := by
  cases a <;> simp_all [Act.isInput, Act.isDisconnect]

end

/-- It is the same to cut at the disconnect before or behind serving. -/
theorem served_beforeDisconnect (ctx : ProxyContext) (acts : List Act) :
    beforeDisconnect (served ctx acts) = served ctx (beforeDisconnect acts) := by
  induction acts with
  | nil => rfl
  | cons a acts ih =>
      rw [served_cons]
      cases hdis : a.isDisconnect with
      | true =>
          rw [beforeDisconnect_of_disconnect hdis, beforeDisconnect_of_disconnect hdis]
          rfl
      | false =>
          rw [beforeDisconnect_cons hdis, beforeDisconnect_cons hdis, served_cons]
          cases a.refused ctx with
          | true => rfl
          | false => rw [if_neg (by simp), if_neg (by simp), ih]

/-- A run takes no input behind a request that does not parse. -/
theorem run_served (env : Env) (ctx : ProxyContext) (c : Client) (acts : List Act) :
    Reactive.run (serveInput env ctx) c (served ctx acts) =
      Reactive.run (serveInput env ctx) c acts :=
  Reactive.run_taken (fun c _ h => serveInput_of_refused env c (by simpa using h)) c acts

/-- What is served ends the task as all the inputs do. -/
theorem refusal_served (ctx : ProxyContext) (acts : List Act) :
    refusal ctx (served ctx acts) = refusal ctx acts := by
  have hany := Reactive.any_taken (fun a => !Act.refused ctx a) acts
  simp only [Bool.not_not] at hany
  rw [refusal, refusal, served, hany]

/-- Without a request that does not parse everything is served. -/
theorem served_of_refusal {ctx : ProxyContext} {acts : List Act} (h : refusal ctx acts = none) :
    served ctx acts = acts := by
  have hnone : ¬ acts.any (Act.refused ctx) = true := by
    intro hany
    rw [refusal, if_pos hany] at h
    contradiction
  refine Reactive.taken_of_goesOn fun a ha => ?_
  simp only [List.any_eq_true, not_exists, not_and] at hnone
  simpa using hnone a ha

/-- The trace of a run grows by its inputs, and by what follows them. -/
theorem run_serveInput_grows (env : Env) (ctx : ProxyContext) (c : Client) {acts : List Act}
    (hacts : ∀ a ∈ acts, a.isInput = true) :
    c.sock.trace <+: (Reactive.run (serveInput env ctx) c acts).1.sock.trace := by
  induction acts generalizing c with
  | nil => exact List.prefix_rfl
  | cons a acts ih =>
      obtain ⟨ha, hacts⟩ := List.forall_mem_cons.mp hacts
      obtain ⟨out, htrace, -⟩ := serveInput_trace env ctx c ha
      have hone : c.sock.trace <+: (serveInput env ctx c a).1.sock.trace :=
        htrace ▸ List.prefix_append _ _
      cases hserve : serveInput env ctx c a with
      | mk c' exit =>
          rw [hserve] at hone
          cases exit with
          | none =>
              rw [Reactive.run_cons_of_continue hserve]
              exact hone.trans (ih c' hacts)
          | some w =>
              rw [Reactive.run_cons_of_stop hserve]
              exact hone

/-- The first input of a run is recorded. -/
theorem run_serveInput_cons_grows (env : Env) (ctx : ProxyContext) (c : Client) {a : Act}
    (ha : a.isInput = true) {acts : List Act} (hacts : ∀ b ∈ acts, b.isInput = true) :
    c.sock.trace ++ [a] <+: (Reactive.run (serveInput env ctx) c (a :: acts)).1.sock.trace := by
  obtain ⟨out, htrace, -⟩ := serveInput_trace env ctx c ha
  have hone : c.sock.trace ++ [a] <+: (serveInput env ctx c a).1.sock.trace :=
    ⟨out, by rw [htrace, List.append_assoc, List.singleton_append]⟩
  cases hserve : serveInput env ctx c a with
  | mk c' exit =>
      rw [hserve] at hone
      cases exit with
      | none =>
          rw [Reactive.run_cons_of_continue hserve]
          exact hone.trans (run_serveInput_grows env ctx c' hacts)
      | some w =>
          rw [Reactive.run_cons_of_stop hserve]
          exact hone

/-- What has been received. -/
def inputs (trace : List Act) : List Act := trace.filter Act.isInput

omit [Protobuf] in
/-- Inputs are received one after the other. -/
theorem inputs_append (trace acts : List Act) :
    inputs (trace ++ acts) = inputs trace ++ inputs acts :=
  List.filter_append trace acts

omit [Protobuf] in
/-- The replies to an input are no inputs. -/
theorem inputs_append_cons (trace : List Act) {a : Act} (ha : a.isInput = true)
    {acts : List Act} (hacts : ∀ b ∈ acts, b.isInput = false) :
    inputs (trace ++ a :: acts) = inputs trace ++ [a] := by
  have hnone : inputs acts = [] := by
    rw [inputs, List.filter_eq_nil_iff]
    exact fun b hb => by simp [hacts b hb]
  have hone : inputs (a :: acts) = a :: inputs acts := List.filter_cons_of_pos ha
  rw [inputs_append, hone, hnone]

omit [Protobuf] in
/-- A disconnect is received if it is in the trace. -/
theorem any_isDisconnect_inputs (trace : List Act) :
    (inputs trace).any Act.isDisconnect = trace.any Act.isDisconnect := by
  induction trace with
  | nil => rfl
  | cons a trace ih =>
      cases ha : a.isInput with
      | true =>
          have hone : inputs (a :: trace) = a :: inputs trace := List.filter_cons_of_pos ha
          rw [hone, List.any_cons, List.any_cons, ih]
      | false =>
          have hskip : inputs (a :: trace) = inputs trace :=
            List.filter_cons_of_neg (by simp [ha])
          rw [hskip, List.any_cons, isDisconnect_of_no_input ha, Bool.false_or, ih]

/-- A run receives its inputs in order, each once, and all of them as long as it
goes on. -/
theorem inputs_run (env : Env) (ctx : ProxyContext) (c : Client) {acts : List Act}
    (hacts : ∀ a ∈ acts, a.isInput = true) :
    ∃ got, got <+: acts ∧
      inputs (Reactive.run (serveInput env ctx) c acts).1.sock.trace = inputs c.sock.trace ++ got ∧
      ((Reactive.run (serveInput env ctx) c acts).2 = none → got = acts) := by
  induction acts generalizing c with
  | nil => exact ⟨[], List.prefix_rfl, (List.append_nil _).symm, fun _ => rfl⟩
  | cons a acts ih =>
      obtain ⟨ha, hacts⟩ := List.forall_mem_cons.mp hacts
      obtain ⟨out, htrace, hout⟩ := serveInput_trace env ctx c ha
      have hone : inputs (serveInput env ctx c a).1.sock.trace = inputs c.sock.trace ++ [a] := by
        rw [htrace, inputs_append_cons _ ha hout]
      cases hserve : serveInput env ctx c a with
      | mk c' exit =>
          rw [hserve] at hone
          cases exit with
          | none =>
              obtain ⟨got, hpre, hgot, hall⟩ := ih c' hacts
              rw [Reactive.run_cons_of_continue hserve, hgot, hone, List.append_assoc]
              exact ⟨a :: got, (List.prefix_cons_inj a).mpr hpre, rfl, fun h => by rw [hall h]⟩
          | some w =>
              rw [Reactive.run_cons_of_stop hserve]
              exact ⟨[a], (List.prefix_cons_inj a).mpr List.nil_prefix, hone,
                fun h => by contradiction⟩

/-- The trace before a disconnect is that of the run up to it. -/
theorem beforeDisconnect_run (env : Env) (ctx : ProxyContext) {c : Client}
    (hnone : c.sock.trace.any Act.isDisconnect = false) {acts : List Act}
    (hacts : ∀ a ∈ acts, a.isInput = true) :
    beforeDisconnect (Reactive.run (serveInput env ctx) c acts).1.sock.trace =
      (Reactive.run (serveInput env ctx) c (beforeDisconnect acts)).1.sock.trace := by
  induction acts generalizing c with
  | nil => exact beforeDisconnect_of_none hnone
  | cons a acts ih =>
      obtain ⟨ha, hacts⟩ := List.forall_mem_cons.mp hacts
      obtain ⟨out, htrace, hout⟩ := serveInput_trace env ctx c ha
      cases hdis : a.isDisconnect with
      | true =>
          obtain ⟨more, hmore⟩ := run_serveInput_cons_grows env ctx c ha hacts
          rw [← hmore, beforeDisconnect_of_disconnect hdis, List.append_assoc,
            beforeDisconnect_append_of_none hnone, List.singleton_append,
            beforeDisconnect_of_disconnect hdis, List.append_nil]
          rfl
      | false =>
          have hnone' : (serveInput env ctx c a).1.sock.trace.any Act.isDisconnect = false := by
            have hrest : out.any Act.isDisconnect = false := by
              rw [List.any_eq_false]
              intro b hb
              rw [isDisconnect_of_no_input (hout b hb)]
              exact Bool.false_ne_true
            rw [htrace, List.any_append, List.any_cons, hnone, hdis, hrest]
            rfl
          rw [beforeDisconnect_cons hdis]
          cases hserve : serveInput env ctx c a with
          | mk c' exit =>
              rw [hserve] at hnone'
              cases exit with
              | none =>
                  rw [Reactive.run_cons_of_continue hserve, Reactive.run_cons_of_continue hserve]
                  exact ih hnone' hacts
              | some w =>
                  rw [Reactive.run_cons_of_stop hserve, Reactive.run_cons_of_stop hserve]
                  exact beforeDisconnect_of_none hnone'

end LinuxBtProxy
