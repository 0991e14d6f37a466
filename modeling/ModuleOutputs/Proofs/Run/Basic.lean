import ModuleOutputs.Sources

/-!
Runs as functions on worlds. An attempt that is run in a world comes to a value or
a failure, and leaves a world; here is what each way of composing attempts comes
to, and the few ways in which a step changes the world.
-/

namespace ModuleOutputs

/-! ## Composing -/

theorem Run.bind_apply {α β : Type} (x : Run α) (f : α → Run β) (w : World) :
    (x >>= f) w = f (x w).1 (x w).2 := rfl

theorem Run.pure_apply {α : Type} (a : α) (w : World) : (pure a : Run α) w = (a, w) := rfl

namespace Attempt

variable {α β : Type}

theorem run_bind (x : Attempt α) (f : α → Attempt β) (w : World) :
    (x >>= f).run w =
      match x.run w with
      | (.ok a, v) => (f a).run v
      | (.error e, v) => (.error e, v) := by
  rw [ExceptT.run_bind, Run.bind_apply]
  rcases x.run w with ⟨_ | _, v⟩ <;> rfl

theorem run_map (g : α → β) (x : Attempt α) (w : World) :
    (g <$> x).run w =
      match x.run w with
      | (.ok a, v) => (.ok (g a), v)
      | (.error e, v) => (.error e, v) := by
  rw [map_eq_pure_bind, run_bind]
  rcases x.run w with ⟨_ | _, v⟩ <;> rfl

theorem run_tryCatch (x : Attempt α) (h : Failure → Attempt α) (w : World) :
    (tryCatch x h).run w =
      match x.run w with
      | (.ok a, v) => (.ok a, v)
      | (.error e, v) => (h e).run v := by
  rw [ExceptT.run_tryCatch, Run.bind_apply]
  rcases x.run w with ⟨_ | _, v⟩ <;> rfl

theorem run_throw (f : Failure) (w : World) : (throw f : Attempt α).run w = (.error f, w) := rfl

theorem run_get (w : World) : (get : Attempt World).run w = (.ok w, w) := rfl

theorem run_modify (g : World → World) (w : World) :
    (modify g : Attempt PUnit).run w = (.ok ⟨⟩, g w) := rfl

theorem run_mk (x : Run (Except Failure α)) (w : World) : (ExceptT.mk x).run w = x w := rfl

theorem run_lift (x : Run α) (w : World) :
    (liftM x : Attempt α).run w = (.ok (x w).1, (x w).2) := rfl

end Attempt

/-! ## Steps of the world -/

namespace World

def logged (w : World) (es : List Event) : World :=
  { w with events := w.events ++ es }

def called (w : World) (call : Call) : World :=
  { w with calls := w.calls ++ [call] }

/-- The world once requests have been answered. -/
def sent (w : World) (requests : List Http.Sent) : World :=
  { w with server := w.server.after requests }

/-- The reply to a request, behind a number of others. -/
def reply (w : World) (n : Nat) : Http.Reply :=
  w.server.replies[n]?.getD Http.Server.exhausted

/-- A world without files, clones or a temporary directory, in which requests come to these
replies. -/
def replying (replies : List Http.Reply) : World where
  tree := .bare
  workingDirectory := Path.ofText "/work"
  temporary := Path.ofText "/tmp"
  scratch := .error .notFound
  git := .unreachable "failed to connect"
  server := { replies }

/-- The world without a directory. -/
def discarded (w : World) (d : Clone.Directory) : World :=
  { w with tree := w.tree.prune d.location }

/-- The world with other files. -/
def withTree (w : World) (tree : FileTree) : World :=
  { w with tree := tree }

def released (w : World) (c : Clone.Checkout) : World :=
  if c.kept then w else w.discarded c.toDirectory

/-- The contents of files, or the failure of the first that cannot be read. -/
def contents (w : World) (paths : List Path) : Except Failure (List SourceFile) :=
  paths.mapM fun p =>
    match w.tree.read w.here p with
    | .ok bytes => .ok ⟨p, Text.lossy bytes⟩
    | .error fault => .error (.file p fault)

/-- Whether two worlds have the same files and differ at most in what was said: calls,
events, requests and replies. -/
def SameFiles (w v : World) : Prop :=
  ∃ calls events server, v = { w with calls, events, server }

namespace SameFiles

theorem refl (w : World) : SameFiles w w :=
  ⟨w.calls, w.events, w.server, rfl⟩

theorem trans {u v w : World} (h : SameFiles u v) (h' : SameFiles v w) : SameFiles u w := by
  obtain ⟨_, _, _, rfl⟩ := h
  obtain ⟨calls, events, server, rfl⟩ := h'
  exact ⟨calls, events, server, rfl⟩

theorem logged (w : World) (es : List Event) : SameFiles w (w.logged es) :=
  ⟨w.calls, w.events ++ es, w.server, rfl⟩

theorem called (w : World) (call : Call) : SameFiles w (w.called call) :=
  ⟨w.calls ++ [call], w.events, w.server, rfl⟩

theorem sent (w : World) (requests : List Http.Sent) : SameFiles w (w.sent requests) :=
  ⟨w.calls, w.events, (w.sent requests).server, rfl⟩

theorem tree_eq {v w : World} (h : SameFiles v w) : w.tree = v.tree := by
  obtain ⟨_, _, _, rfl⟩ := h
  rfl

theorem here_eq {v w : World} (h : SameFiles v w) : w.here = v.here := by
  obtain ⟨_, _, _, rfl⟩ := h
  rfl

theorem contents_eq {v w : World} (h : SameFiles v w) (paths : List Path) :
    w.contents paths = v.contents paths := by
  unfold contents
  rw [h.tree_eq, h.here_eq]

end SameFiles

/-- Whether the same was said in two worlds, and the same will be replied. -/
def SameTalk (w v : World) : Prop :=
  w.calls = v.calls ∧ w.server = v.server

namespace SameTalk

theorem refl (w : World) : SameTalk w w :=
  ⟨rfl, rfl⟩

theorem logged {w v : World} (h : SameTalk w v) (es es' : List Event) :
    SameTalk (w.logged es) (v.logged es') :=
  h

theorem called {w v : World} (h : SameTalk w v) (call : Call) :
    SameTalk (w.called call) (v.called call) :=
  ⟨congrArg (· ++ [call]) h.1, h.2⟩

theorem reply_eq {w v : World} (h : SameTalk w v) (n : Nat) : w.reply n = v.reply n := by
  unfold reply
  rw [h.2]

theorem sent {w v : World} (h : SameTalk w v) (requests : List Http.Sent) :
    SameTalk (w.sent requests) (v.sent requests) := by
  refine ⟨h.1, ?_⟩
  simp only [World.sent, h.2]

end SameTalk

@[simp] theorem logged_nil (w : World) : w.logged [] = w := by
  simp [logged]

theorem sent_nil (w : World) : w.sent [] = w := by
  simp [sent, Http.Server.after]

@[simp] theorem logged_tree (w : World) (es : List Event) : (w.logged es).tree = w.tree := rfl

@[simp] theorem logged_here (w : World) (es : List Event) : (w.logged es).here = w.here := rfl

@[simp] theorem logged_calls (w : World) (es : List Event) : (w.logged es).calls = w.calls := rfl

@[simp] theorem logged_server (w : World) (es : List Event) : (w.logged es).server = w.server := rfl

@[simp] theorem called_server (w : World) (call : Call) : (w.called call).server = w.server := rfl

@[simp] theorem sent_calls (w : World) (rs : List Http.Sent) : (w.sent rs).calls = w.calls := rfl

@[simp] theorem discarded_calls (w : World) (d : Clone.Directory) :
    (w.discarded d).calls = w.calls := rfl

@[simp] theorem released_calls (w : World) (c : Clone.Checkout) :
    (w.released c).calls = w.calls := by
  unfold released
  split <;> rfl

@[simp] theorem discarded_server (w : World) (d : Clone.Directory) :
    (w.discarded d).server = w.server := rfl

@[simp] theorem released_server (w : World) (k : Clone.Checkout) :
    (w.released k).server = w.server := by
  unfold released
  split <;> rfl

@[simp] theorem released_events (w : World) (k : Clone.Checkout) :
    (w.released k).events = w.events := by
  unfold released
  split <;> rfl

theorem SameTalk.discarded {w v : World} (h : SameTalk w v) (d d' : Clone.Directory) :
    SameTalk (w.discarded d) (v.discarded d') :=
  h

theorem SameTalk.released {w v : World} (h : SameTalk w v) (c k : Clone.Checkout) :
    SameTalk (w.released c) (v.released k) := by
  simpa [SameTalk] using h

theorem sent_sent (w : World) (rs rs' : List Http.Sent) :
    (w.sent rs).sent rs' = w.sent (rs ++ rs') := by
  simp [sent, Http.Server.after, List.drop_drop, List.take_add]

theorem reply_sent (w : World) (rs : List Http.Sent) (n : Nat) :
    (w.sent rs).reply n = w.reply (rs.length + n) := by
  simp [sent, reply, Http.Server.after]

theorem contents_cons (w : World) (p : Path) (paths : List Path) :
    w.contents (p :: paths) =
      match w.tree.read w.here p with
      | .error fault => .error (.file p fault)
      | .ok bytes => (w.contents paths).map (⟨p, Text.lossy bytes⟩ :: ·) := by
  unfold contents
  rw [List.mapM_cons]
  cases w.tree.read w.here p with
  | error fault => rfl
  | ok bytes =>
      simp only [bind, Except.bind]
      split <;> simp_all [Except.map, pure, Except.pure]

/-- The files that are read are those that were asked for, in order. -/
theorem contents_paths {w : World} {paths : List Path} {files : List SourceFile}
    (h : w.contents paths = .ok files) : files.map SourceFile.path = paths := by
  induction paths generalizing files with
  | nil =>
      cases h
      rfl
  | cons p rest ih =>
      rw [contents_cons] at h
      split at h
      · cases h
      · cases hr : w.contents rest with
        | error f => simp [hr, Except.map] at h
        | ok fs =>
            rw [hr] at h
            cases h
            simp [ih hr]

/-- Reading fails exactly if there is a file that cannot be read. -/
theorem contents_fails_iff (w : World) (paths : List Path) :
    (∃ f, w.contents paths = .error f) ↔
      ∃ p ∈ paths, ∃ fault, w.tree.read w.here p = .error fault := by
  induction paths with
  | nil => simp [contents, pure, Except.pure]
  | cons p rest ih =>
      rw [contents_cons]
      cases hp : w.tree.read w.here p with
      | error fault => simp [hp]
      | ok bytes =>
          cases hr : w.contents rest with
          | error f =>
              obtain ⟨q, hq, fault, hf⟩ := ih.mp ⟨f, hr⟩
              simp only [Except.map, Except.error.injEq, exists_eq', true_iff]
              exact ⟨q, List.mem_cons_of_mem p hq, fault, hf⟩
          | ok files =>
              have hn : ¬ ∃ q ∈ rest, ∃ fault, w.tree.read w.here q = .error fault := by
                rw [← ih, hr]
                simp
              simp only [Except.map, reduceCtorEq, exists_false, false_iff]
              rintro ⟨q, hq, fault, hf⟩
              rcases List.mem_cons.mp hq with rfl | hq
              · rw [hp] at hf
                cases hf
              · exact hn ⟨q, hq, fault, hf⟩

end World

/-! ## Primitive steps -/

namespace Run

theorem log_apply (e : Event) (w : World) : log e w = ((), w.logged [e]) := rfl

theorem forM_log_apply (es : List Event) (w : World) : es.forM log w = ((), w.logged es) := by
  induction es generalizing w with
  | nil =>
      rw [World.logged, List.append_nil]
      exact pure_apply () w
  | cons e rest ih =>
      change (log e >>= fun _ => rest.forM log) w = _
      simp only [bind_apply, log_apply, ih, World.logged, List.append_assoc, List.cons_append,
        List.nil_append]

theorem send_apply (request : Http.Sent) (w : World) :
    send request w = (w.reply 0, w.sent [request]) := by
  simp [send, World.reply, World.sent, Http.Server.exchange, List.head?_eq_getElem?]

theorem readBytes_run (p : Path) (w : World) :
    (readBytes p).run w =
      (match w.tree.read w.here p with
        | .ok bytes => .ok bytes
        | .error fault => .error (.file p fault), w) := by
  simp only [readBytes, Attempt.run_bind, Attempt.run_get]
  cases w.tree.read w.here p <;> rfl

theorem writeBytes_run (p : Path) (content : Text.Bytes) (w : World) :
    (writeBytes p content).run w =
      match w.tree.write w.here p content with
      | .ok tree => (.ok (), w.withTree tree)
      | .error fault => (.error (.file p fault), w) := by
  simp only [writeBytes, Attempt.run_bind, Attempt.run_get]
  cases w.tree.write w.here p content <;> rfl

end Run

namespace Sources

theorem readFile_run (p : Path) (w : World) :
    (readFile p).run w =
      (match w.tree.read w.here p with
        | .ok bytes => .ok ⟨p, Text.lossy bytes⟩
        | .error fault => .error (.file p fault), w) := by
  rw [readFile, Attempt.run_bind, Run.readBytes_run]
  cases w.tree.read w.here p <;> rfl

/-- Reading files changes nothing. -/
theorem readFiles_run (paths : List Path) (w : World) :
    (readFiles paths).run w = (w.contents paths, w) := by
  unfold readFiles
  induction paths with
  | nil => rfl
  | cons p rest ih =>
      rw [List.mapM_cons, Attempt.run_bind, readFile_run, World.contents_cons]
      cases w.tree.read w.here p with
      | error fault => rfl
      | ok bytes =>
          simp only [Attempt.run_bind, ih]
          cases w.contents rest <;> rfl

theorem filesBelow_run (c : ScanConfig) (root : Path) (w : World) :
    (filesBelow c root).run w = (w.tree.sourceFiles (Scan.ofConfig c) w.here root, w) := by
  simp only [filesBelow, Attempt.run_bind, Attempt.run_get]
  cases w.tree.sourceFiles (Scan.ofConfig c) w.here root <;> rfl

end Sources

end ModuleOutputs
