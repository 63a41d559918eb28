import Mathlib.Data.List.Basic
import AppManifest.Descriptor.Encoding
import AppManifest.Descriptor.Validation

namespace AppManifest
set_option autoImplicit true

/-! What is written of a descriptor reads back as that descriptor, in both styles, and the host file
tells the settings of the host. -/

@[simp] theorem Checked.map_valid (f : α → β) (a : α) : f <$> Checked.valid a = .valid (f a) := rfl

@[simp] theorem Checked.valid_seq (f : α → β) (a : α) :
    Checked.valid f <*> Checked.valid a = .valid (f a) := rfl

namespace Json

/-- The key of an optional member in a style. -/
def keyIn : Style → String → String → String
  | .full, field, _ => field
  | .compact, _, member => member

/-- What is written of an optional member in a style. -/
def valueIn (style : Style) (encode : α → Json) : Option α → Option Json
  | some a => some (encode a)
  | none => match style with
    | .full => some .null
    | .compact => none

theorem lookup_cons (key member : String) (j : Json) (members : List (String × Json)) :
    ((member, j) :: members).lookup key = if key = member then some j else members.lookup key := by
  rw [List.lookup_cons, beq_eq_decide]
  by_cases hk : key = member
  · simp only [hk, decide_true, if_true]
  · simp only [hk, decide_false, if_false]

theorem lookup_optionalMember (style : Style) (field member key : String) (encode : α → Json)
    (o : Option α) : (optionalMember style field member encode o).lookup key =
      if key = keyIn style field member then valueIn style encode o else none := by
  cases style with
  | full => cases o <;> exact lookup_cons key field _ []
  | compact =>
    cases o with
    | some a => exact lookup_cons key member _ []
    | none => exact (ite_self none).symm

end Json

namespace Decoder

/-- A decoder gives back every value that an encoder writes. -/
def Reads (decode : Decoder α) (encode : α → Json) : Prop :=
  ∀ a, decode (encode a) = .valid a

/-- An encoder never writes null, which stands for no value. -/
def NeverNull (encode : α → Json) : Prop :=
  ∀ a, encode a ≠ .null

variable {decode : Decoder α} {encode : α → Json} {members : List (String × Json)}
  {key first second : String}

theorem reads_string : Reads string .str := fun _ => rfl

theorem reads_integer : Reads integer .int := fun _ => rfl

theorem Reads.items (h : Reads decode encode) (index : Nat) (as : List α) :
    items decode index (as.map encode) = .valid as := by
  induction as generalizing index with
  | nil => rfl
  | cons a as ih =>
    rw [List.map_cons, Decoder.items, h a, ih]
    rfl

theorem Reads.list (h : Reads decode encode) :
    Reads (list decode) fun as => .arr (as.map encode) :=
  h.items 0

theorem Reads.nullable (h : Reads decode encode) (hnull : NeverNull encode) (a : α) :
    nullable decode (encode a) = .valid (some a) := by
  unfold Decoder.nullable
  split
  next hj => exact absurd hj (hnull a)
  next =>
    rw [h a]
    rfl

theorem Reads.required (h : Reads decode encode) (hm : members.lookup key = some (encode a)) :
    required key decode members = .valid a := by
  simp only [Decoder.required, hm, h a]
  rfl

theorem Reads.optional (h : Reads decode encode) (hnull : NeverNull encode) (style : Style)
    (o : Option α) (step : Step) :
    (match Json.valueIn style encode o with
      | some j => (Decoder.nullable decode j).under step
      | none => Checked.valid none) = .valid o := by
  cases o with
  | some a =>
    simp only [Json.valueIn, h.nullable hnull]
    rfl
  | none => cases style <;> rfl

theorem Reads.aliased (h : Reads decode encode) (hnull : NeverNull encode) (style : Style)
    (hm : (members.lookup first <|> members.lookup second) = Json.valueIn style encode o) :
    aliased first second decode members = .valid o := by
  rw [Decoder.aliased, hm]
  exact h.optional hnull style o _

theorem Reads.defaulted (h : Reads decode encode) (hm : members.lookup key = some (encode a))
    (absent : α) : defaulted key absent decode members = .valid a := by
  simp only [Decoder.defaulted, hm, h a]
  rfl

theorem Reads.defaulted_nullable (h : Reads decode encode) (hnull : NeverNull encode)
    (style : Style) (hm : members.lookup key = Json.valueIn style encode o) :
    Decoder.defaulted key none (Decoder.nullable decode) members = .valid o := by
  rw [Decoder.defaulted, hm]
  exact h.optional hnull style o _

end Decoder

open Decoder

theorem LinePosition.reads : Reads decode encode := fun _ => rfl

theorem LineRange.reads : Reads decode encode := fun _ => rfl

theorem SourceLocation.reads : Reads decode encode := fun _ => rfl

theorem Binding.reads (style : Style) : Reads decode (encode style) := by
  intro b
  obtain ⟨members, hb⟩ : ∃ members, b.encode style = .obj members := ⟨_, rfl⟩
  have hlookup (key : String) := congrArg (List.lookup key) (Json.obj.inj hb).symm
  simp only [List.lookup_append, Json.lookup_cons, List.lookup_nil, Json.lookup_optionalMember]
    at hlookup
  have hstring {first second o}
      (hm : (members.lookup first <|> members.lookup second) = Json.valueIn style .str o) :
      aliased first second string members = .valid o :=
    reads_string.aliased (nofun) style hm
  have htype : required "type" string members = .valid b.type :=
    reads_string.required (by simp [hlookup])
  have hdirection : required "direction" string members = .valid b.direction :=
    reads_string.required (by simp [hlookup])
  have hname : required "name" string members = .valid b.name :=
    reads_string.required (by simp [hlookup])
  have hauth : aliased "authLevel" "auth_level" string members = .valid b.authLevel :=
    hstring (by cases style <;> simp [hlookup, Json.keyIn])
  have hmethods : aliased "methods" "methods" (list string) members = .valid b.methods :=
    reads_string.list.aliased (nofun) style
      (by cases style <;> simp [hlookup, Json.keyIn])
  have hroute : aliased "route" "route" string members = .valid b.route :=
    hstring (by cases style <;> simp [hlookup, Json.keyIn])
  have hqueue : aliased "queueName" "queue_name" string members = .valid b.queueName :=
    hstring (by cases style <;> simp [hlookup, Json.keyIn])
  have hconnection : aliased "connection" "connection" string members = .valid b.connection :=
    hstring (by cases style <;> simp [hlookup, Json.keyIn])
  have hschedule : aliased "schedule" "schedule" string members = .valid b.schedule :=
    hstring (by cases style <;> simp [hlookup, Json.keyIn])
  have hpath : aliased "path" "path" string members = .valid b.path :=
    hstring (by cases style <;> simp [hlookup, Json.keyIn])
  have hdata : aliased "dataType" "data_type" string members = .valid b.dataType :=
    hstring (by cases style <;> simp [hlookup, Json.keyIn])
  simp only [hb, decode, object, htype, hdirection, hname, hauth, hmethods, hroute, hqueue,
    hconnection, hschedule, hpath, hdata, Checked.map_valid, Checked.valid_seq]

theorem FunctionDescriptor.reads (style : Style) : Reads decode (encode style) := by
  intro f
  obtain ⟨members, hf⟩ : ∃ members, f.encode style = .obj members := ⟨_, rfl⟩
  have hlookup (key : String) := congrArg (List.lookup key) (Json.obj.inj hf).symm
  simp only [Json.lookup_cons, List.lookup_nil] at hlookup
  have hname : required "name" string members = .valid f.name :=
    reads_string.required (by simp [hlookup])
  have hservice : required "service" string members = .valid f.service :=
    reads_string.required (by simp [hlookup])
  have hhandler : required "handler" string members = .valid f.handler :=
    reads_string.required (by simp [hlookup])
  have hbindings : required "bindings" (list Binding.decode) members = .valid f.bindings :=
    (Binding.reads style).list.required (by simp [hlookup])
  simp only [hf, decode, object, hname, hservice, hhandler, hbindings, Checked.map_valid,
    Checked.valid_seq]

theorem HostSettings.reads (style : Style) : Reads decode (encode style) := by
  intro h
  obtain ⟨members, hh⟩ : ∃ members, h.encode style = .obj members := ⟨_, rfl⟩
  have hlookup (key : String) := congrArg (List.lookup key) (Json.obj.inj hh).symm
  simp only [List.lookup_append, Json.lookup_cons, List.lookup_nil, Json.lookup_optionalMember]
    at hlookup
  have hexecutable : required "handler_executable" string members = .valid h.handlerExecutable :=
    reads_string.required (by simp [hlookup])
  have hversion : defaulted "extension_bundle_version" defaultBundleVersion string members =
      .valid h.extensionBundleVersion :=
    reads_string.defaulted (by simp [hlookup]) _
  have hbatch : defaulted "queue_batch_size" none (nullable integer) members =
      .valid h.queueBatchSize :=
    reads_integer.defaulted_nullable nofun style (by cases style <;> simp [hlookup, Json.keyIn])
  have hcount : defaulted "queue_max_dequeue_count" none (nullable integer) members =
      .valid h.queueMaxDequeueCount :=
    reads_integer.defaulted_nullable nofun style (by cases style <;> simp [hlookup, Json.keyIn])
  simp only [hh, decode, object, hexecutable, hversion, hbatch, hcount, Checked.map_valid,
    Checked.valid_seq]

theorem FunctionApp.reads (style : Style) : Reads decode (encode style) := by
  intro a
  obtain ⟨members, ha⟩ : ∃ members, a.encode style = .obj members := ⟨_, rfl⟩
  have hlookup (key : String) := congrArg (List.lookup key) (Json.obj.inj ha).symm
  simp only [Json.lookup_cons, List.lookup_nil] at hlookup
  have hhost : required "host" HostSettings.decode members = .valid a.host :=
    (HostSettings.reads style).required (by simp [hlookup])
  have hfunctions : defaulted "functions" [] (list FunctionDescriptor.decode) members =
      .valid a.functions :=
    (FunctionDescriptor.reads style).list.defaulted (by simp [hlookup]) _
  simp only [ha, decode, object, hhost, hfunctions, Checked.map_valid, Checked.valid_seq]

namespace Json

/-- The value at the end of a way through objects. -/
def at? (j : Json) : List String → Option Json
  | [] => some j
  | key :: path => j.member? key >>= fun m => m.at? path

/-- Equal values, where the order of an object's members does not count. -/
inductive Alike : Json → Json → Prop
  | refl : Alike j j
  | arr (h : List.Forall₂ Alike js js') : Alike (.arr js) (.arr js')
  | obj (h : ∀ key, Option.Rel Alike (ms.lookup key) (ms'.lookup key)) :
      Alike (.obj ms) (.obj ms')

theorem rel_refl (o : Option Json) : Option.Rel Alike o o := by
  cases o with
  | none => exact .none
  | some j => exact .some .refl

theorem Alike.member? (h : Alike j j') (key : String) :
    Option.Rel Alike (j.member? key) (j'.member? key) := by
  cases h with
  | refl => exact rel_refl _
  | arr => exact .none
  | obj h => exact h key

/-- Alike values have alike values at the end of every way. -/
theorem Alike.at? (h : Alike j j') (path : List String) :
    Option.Rel Alike (j.at? path) (j'.at? path) := by
  induction path generalizing j j' with
  | nil => exact .some h
  | cons key path ih =>
    have hm := h.member? key
    rw [Json.at?, Json.at?]
    generalize j.member? key = o at hm
    generalize j'.member? key = o' at hm
    cases hm with
    | none => exact .none
    | some hm => exact ih hm

theorem eq_of_rel_str (h : Option.Rel Alike (some (.str s)) (some (.str s'))) : s = s' := by
  cases h with
  | some h =>
    cases h
    rfl

theorem eq_of_rel_int {o o' : Option Int} (h : Option.Rel Alike (o.map .int) (o'.map .int)) :
    o = o' := by
  cases o with
  | none =>
    cases o' with
    | none => rfl
    | some n' => cases h
  | some n =>
    cases o' with
    | none => cases h
    | some n' =>
      cases h with
      | some h =>
        cases h
        rfl

end Json

namespace HostSettings

theorem hostJson_executable (h : HostSettings) :
    h.hostJson.at? ["customHandler", "description", "defaultExecutablePath"] =
      some (.str h.handlerExecutable) := rfl

theorem hostJson_version (h : HostSettings) :
    h.hostJson.at? ["extensionBundle", "version"] = some (.str h.extensionBundleVersion) := rfl

theorem hostJson_batchSize (h : HostSettings) :
    h.hostJson.at? ["extensions", "queues", "batchSize"] = h.queueBatchSize.map .int := by
  obtain ⟨_, _, batchSize, count⟩ := h
  cases batchSize <;> cases count <;> rfl

theorem hostJson_maxDequeueCount (h : HostSettings) :
    h.hostJson.at? ["extensions", "queues", "maxDequeueCount"] =
      h.queueMaxDequeueCount.map .int := by
  obtain ⟨_, _, batchSize, count⟩ := h
  cases batchSize <;> cases count <;> rfl

/-- Each setting has a place of its own in the host file. -/
theorem eq_of_hostJson_alike {h h' : HostSettings} (ha : h.hostJson.Alike h'.hostJson) :
    h = h' := by
  have hexecutable := ha.at? ["customHandler", "description", "defaultExecutablePath"]
  have hversion := ha.at? ["extensionBundle", "version"]
  have hbatch := ha.at? ["extensions", "queues", "batchSize"]
  have hcount := ha.at? ["extensions", "queues", "maxDequeueCount"]
  rw [hostJson_executable, hostJson_executable] at hexecutable
  rw [hostJson_version, hostJson_version] at hversion
  rw [hostJson_batchSize, hostJson_batchSize] at hbatch
  rw [hostJson_maxDequeueCount, hostJson_maxDequeueCount] at hcount
  cases h
  cases h'
  rw [HostSettings.mk.injEq]
  exact ⟨Json.eq_of_rel_str hexecutable, Json.eq_of_rel_str hversion, Json.eq_of_rel_int hbatch,
    Json.eq_of_rel_int hcount⟩

end HostSettings

/-- Nothing is lost in writing: every value of each model reads back from what is written of it, in
both styles; the bindings in the file of a function read back in their order; and host files are
alike, whatever the order of their members, only for the same settings. -/
theorem descriptors_read_back :
    Reads LinePosition.decode LinePosition.encode ∧ Reads LineRange.decode LineRange.encode ∧
      Reads SourceLocation.decode SourceLocation.encode ∧
      (∀ style : Style, Reads Binding.decode (Binding.encode style) ∧
        Reads FunctionDescriptor.decode (FunctionDescriptor.encode style) ∧
        Reads HostSettings.decode (HostSettings.encode style) ∧
        Reads FunctionApp.decode (FunctionApp.encode style)) ∧
      (∀ f : FunctionDescriptor, ∃ js, f.functionJson.member? "bindings" = some (.arr js) ∧
        js.map Binding.decode = f.bindings.map .valid) ∧
      ∀ h h' : HostSettings, h.hostJson.Alike h'.hostJson ↔ h = h' := by
  refine ⟨LinePosition.reads, LineRange.reads, SourceLocation.reads, fun style => ?_, fun f => ?_,
    fun h h' => ⟨HostSettings.eq_of_hostJson_alike, fun heq => heq ▸ .refl⟩⟩
  · exact ⟨Binding.reads style, FunctionDescriptor.reads style, HostSettings.reads style,
      FunctionApp.reads style⟩
  · refine ⟨f.bindings.map (·.encode .compact), rfl, ?_⟩
    rw [List.map_map]
    exact List.map_congr_left fun b _ => Binding.reads .compact b

end AppManifest
