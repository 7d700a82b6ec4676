import KaaS.Kube.Secrets
import KaaS.Library.Guard

/-!
# What the Secrets page gives away

A viewer is shown keys and lengths. So two clusters that differ only in values of equal length
(`Alike`) should give the same answer to every read, whatever namespace and name a request
carries. They do not: the annotation that `kubectl apply` leaves holds the values as they were
applied, and it is shown with the others; and a name that is an option turns the manifest of one
Secret into a list, whose entries have their values below the level that is scrubbed.

`unrevealing_iff` says exactly when a read gives nothing away: the object it is about keeps no
applied value in its annotations, and, if it is the manifest of a list, the objects listed hold
no values at all.
-/

namespace KaaS

open Text Guard

/-! ### The property -/

def blankValues (d : List (String × List UInt8)) : List (String × List UInt8) :=
  d.map fun p => (p.1, p.2.map fun _ => 0)

/-- All about a Secret but its values, of which the lengths are left. -/
def SecretObject.blank (o : SecretObject) : SecretObject :=
  { o with
    data := blankValues o.data
    lastApplied := o.lastApplied.map fun la => { la with data := blankValues la.data } }

/-- **Alike**: the clusters differ only in values of equal length. -/
def Alike (s s' : SecretStore) : Prop := s.map (·.blank) = s'.map (·.blank)

instance (s s' : SecretStore) : Decidable (Alike s s') :=
  inferInstanceAs (Decidable (s.map (·.blank) = s'.map (·.blank)))

inductive SecretQuery
  | secrets (namespaceName : String)
  | secret (ref : SecretRef)
  | secretManifest (ref : SecretRef)

inductive SecretAnswer
  | summaries (rows : List SecretSummary)
  | detail (d : SecretDetail)
  | manifest (doc : Json)

def answer (k : Kubectl) (s : SecretStore) : SecretQuery → Except String SecretAnswer
  | .secrets ns => (secrets k s ns).map .summaries
  | .secret ref => (secret k s ref).map .detail
  | .secretManifest ref => (secretManifest k s ref).map .manifest

/-- **The read gives nothing away**: every cluster alike gives the same answer. -/
def Unrevealing (k : Kubectl) (s : SecretStore) (q : SecretQuery) : Prop :=
  ∀ s', Alike s s' → answer k s' q = answer k s q

/-! ### The condition -/

/-- The values that were applied, as far as the annotation keeps them. -/
def SecretObject.copies (o : SecretObject) : List (String × List UInt8) :=
  (o.lastApplied.map (·.data)).getD []

def NoValues (d : List (String × List UInt8)) : Prop := ∀ p ∈ d, p.2 = []

/-- What a read is about holds nothing where the read would show it. -/
def Guarded (k : Kubectl) (s : SecretStore) : SecretQuery → Prop
  | .secrets _ => True
  | .secret ref =>
    match k.target (secretArgs ref) with
    | .one ns name => ∀ o ∈ s.get ns name, NoValues o.copies
    | _ => True
  | .secretManifest ref =>
    match k.target (secretArgs ref) with
    | .one ns name => ∀ o ∈ s.get ns name, NoValues o.copies
    | .listed ns => ∀ o ∈ s.list ns, NoValues o.data ∧ NoValues o.copies
    | .refused _ => True

/-! ### Reading documents -/

section Documents

variable (o : SecretObject)

/-- What is read out of the document of a Secret. -/
def SecretObject.raw : RawSecret where
  name := o.name
  namespaceName := o.namespaceName
  creationTimestamp := o.creationTimestamp
  labels := o.labels
  annotations := o.allAnnotations
  ownerReferences := o.ownerReferences
  immutable := o.immutable
  type := o.type
  data := o.encodedData

private theorem lookup_optional (key key' : String) (absent : Bool) (v : Json) :
    (Json.optional absent key' v).lookup key =
      if absent = false ∧ key = key' then some v else none := by
  unfold Json.optional
  cases absent with
  | true => simp
  | false =>
    by_cases h : key = key'
    · simp [h]
    · simp [List.lookup_cons, h, beq_eq_false_iff_ne.mpr h]

private theorem field_obj (key : String) (fields : List (String × Json)) :
    (Json.obj fields).field key = (fields.lookup key).getD .null := rfl

private theorem asMap_optional (m : List (String × String)) (absent : Bool)
    (h : absent = true → m = []) :
    (((if absent = false then some (Json.ofMap m) else none) : Option Json).getD .null).asMap =
      .ok m := by
  cases absent with
  | true => rw [h rfl]; rfl
  | false => exact Json.asMap_ofMap m

theorem field_metadata : o.toJson.field "metadata" = o.metadata := by
  simp [SecretObject.toJson, field_obj, List.lookup_append, lookup_optional, List.lookup_cons]

theorem asMap_annotations : (o.metadata.field "annotations").asMap = .ok o.allAnnotations := by
  have h := asMap_optional o.allAnnotations o.allAnnotations.isEmpty List.isEmpty_iff.mp
  simpa [SecretObject.metadata, field_obj, List.lookup_append, lookup_optional, List.lookup_cons]
    using h

theorem asMap_labels : (o.metadata.field "labels").asMap = .ok o.labels := by
  have h := asMap_optional o.labels o.labels.isEmpty List.isEmpty_iff.mp
  simpa [SecretObject.metadata, field_obj, List.lookup_append, lookup_optional, List.lookup_cons]
    using h

theorem asMap_data : (o.toJson.field "data").asMap = .ok o.encodedData := by
  have h := asMap_optional o.encodedData o.data.isEmpty fun h => by
    rw [List.isEmpty_iff] at h
    simp [SecretObject.encodedData, h]
  simpa [SecretObject.toJson, field_obj, List.lookup_append, lookup_optional, List.lookup_cons]
    using h

private theorem owners_eq :
    ((o.metadata.field "ownerReferences").asList >>= (·.mapM decodeOwner)) =
      .ok o.ownerReferences := by
  have hmap : (o.ownerReferences.map fun r =>
      Json.obj [("kind", .str r.kind), ("name", .str r.name)]).mapM decodeOwner =
      .ok o.ownerReferences := by
    induction o.ownerReferences with
    | nil => rfl
    | cons r refs ih => rw [List.map_cons, List.mapM_cons, ih]; rfl
  have hfield : o.metadata.field "ownerReferences" =
      if o.ownerReferences.isEmpty = false then .arr (o.ownerReferences.map fun r =>
        .obj [("kind", .str r.kind), ("name", .str r.name)]) else .null := by
    simp only [SecretObject.metadata, field_obj, List.lookup_append, lookup_optional,
      List.lookup_cons]
    cases o.ownerReferences.isEmpty <;> simp
  rw [hfield]
  split
  · exact hmap
  · rename_i hempty
    rw [Bool.not_eq_false, List.isEmpty_iff] at hempty
    rw [hempty]
    rfl

private theorem immutable_eq : (o.toJson.field "immutable").asBool = .ok o.immutable := by
  simp only [SecretObject.toJson, field_obj, List.lookup_append, lookup_optional, List.lookup_cons]
  cases o.immutable <;> simp [Json.asBool, pure, Except.pure]

/-- **The document of a Secret reads as that Secret.** -/
theorem decodeSecret_toJson : decodeSecret o.toJson = .ok o.raw := by
  have hname : (o.metadata.field "name").asString = .ok o.name := by
    simp [SecretObject.metadata, field_obj, List.lookup_append, lookup_optional, List.lookup_cons,
      Json.asString, pure, Except.pure]
  have hns : (o.metadata.field "namespace").asString = .ok o.namespaceName := by
    simp [SecretObject.metadata, field_obj, List.lookup_append, lookup_optional, List.lookup_cons,
      Json.asString, pure, Except.pure]
  have hcreated : (o.metadata.field "creationTimestamp").asString = .ok o.creationTimestamp := by
    simp [SecretObject.metadata, field_obj, List.lookup_append, lookup_optional, Json.asString,
      pure, Except.pure]
  have htype : (o.toJson.field "type").asString = .ok o.type := by
    simp [SecretObject.toJson, field_obj, List.lookup_append, lookup_optional, List.lookup_cons,
      Json.asString, pure, Except.pure]
  obtain ⟨refs, hlist, hrefs⟩ := bind_eq_ok.mp (owners_eq o)
  unfold decodeSecret
  simp only [field_metadata, bind_eq_ok, pure_eq_ok]
  exact ⟨_, hname, _, hns, _, hcreated, _, asMap_labels o, _, asMap_annotations o, _, hlist, _,
    hrefs, _, immutable_eq o, _, htype, _, asMap_data o, rfl⟩

theorem decodeItems_listJson (items : List SecretObject) :
    (((listJson items).field "items").asList >>= (·.mapM decodeSecret)) =
      .ok (items.map (·.raw)) := by
  have hmap : (items.map (·.toJson)).mapM decodeSecret = .ok (items.map (·.raw)) := by
    induction items with
    | nil => rfl
    | cons o items ih =>
      rw [List.map_cons, List.mapM_cons, decodeSecret_toJson, ih]
      rfl
  exact hmap

end Documents

/-! ### Values -/

section Values

variable {d d' : List (String × List UInt8)}

theorem encode_injective {v v' : List UInt8} (h : Base64.encode v = Base64.encode v') : v = v' := by
  have hdecode := congrArg Base64.decode h
  rw [Base64.decode_encode, Base64.decode_encode] at hdecode
  exact Option.some.inj hdecode

theorem length_encode (v : List UInt8) : (Base64.encode v).length = (v.length + 2) / 3 * 4 := by
  rw [Base64.encode, String.length_ofList, Base64.length_encodeChars]

theorem encoded_injective
    (h : d.map (fun p => (p.1, Base64.encode p.2)) = d'.map fun p => (p.1, Base64.encode p.2)) :
    d = d' := by
  refine List.map_injective_iff.mpr ?_ h
  intro p p' heq
  obtain ⟨hk, hv⟩ := Prod.mk.inj heq
  exact Prod.ext hk (encode_injective hv)

private theorem length_manifestEntry (p : String × List UInt8) :
    (manifestEntry p).length = p.1.length + (p.2.length + 2) / 3 * 4 + 5 := by
  have hmark : "\"".length = 1 ∧ ":".length = 1 := ⟨rfl, rfl⟩
  simp only [manifestEntry, quote, String.length_append, length_encode, hmark]
  omega

private theorem manifestEntry_injective {p p' : String × List UInt8} (hkey : p.1 = p'.1)
    (h : manifestEntry p = manifestEntry p') : p = p' := by
  have hl := congrArg String.toList h
  simp only [manifestEntry, quote, hkey, String.toList_append, List.append_cancel_left_eq,
    List.append_cancel_right_eq] at hl
  exact Prod.ext hkey (encode_injective (String.toList_inj.mp hl))

private theorem eq_of_entries (hblank : blankValues d = blankValues d')
    (h : d.map manifestEntry = d'.map manifestEntry) : d = d' := by
  induction d generalizing d' with
  | nil => simpa using h.symm
  | cons p d ih =>
    cases d' with
    | nil => simp at h
    | cons p' d' =>
      obtain ⟨hp, hblank⟩ := List.cons.inj hblank
      obtain ⟨hentry, h⟩ := List.cons.inj h
      rw [manifestEntry_injective (Prod.mk.inj hp).1 hentry, ih hblank h]

theorem text_injective {la la' : LastApplied} (hhead : la.head = la'.head)
    (hblank : blankValues la.data = blankValues la'.data) (htail : la.tail = la'.tail)
    (h : la.text = la'.text) : la = la' := by
  obtain ⟨head, d, tail⟩ := la
  obtain ⟨_, d', _⟩ := la'
  obtain rfl : head = _ := hhead
  obtain rfl : tail = _ := htail
  have hlen : (d.map manifestEntry).map (·.length) = (d'.map manifestEntry).map (·.length) := by
    have hlens := congrArg (List.map fun p : String × List UInt8 =>
      p.1.length + (p.2.length + 2) / 3 * 4 + 5) hblank
    simpa [blankValues, Function.comp_def, length_manifestEntry] using hlens
  have hjoin : join "," (d.map manifestEntry) = join "," (d'.map manifestEntry) := by
    have htext := congrArg String.toList h
    simp only [LastApplied.text, String.toList_append, List.append_cancel_right_eq,
      List.append_cancel_left_eq] at htext
    exact String.toList_inj.mp htext
  have hdata : d = d' := eq_of_entries hblank (join_injective hlen hjoin)
  rw [hdata]

end Values

/-! ### What the reads tell apart -/

section Objects

variable {o o' : SecretObject}

/-- Two Secrets that differ only in values of equal length. -/
private structure SameBlank (o o' : SecretObject) : Prop where
  rest : { o with data := [], lastApplied := none } = { o' with data := [], lastApplied := none }
  data : blankValues o.data = blankValues o'.data
  copies : o.lastApplied.map (fun la => (la.head, blankValues la.data, la.tail)) =
    o'.lastApplied.map fun la => (la.head, blankValues la.data, la.tail)

private theorem sameBlank_of_eq (h : o.blank = o'.blank) : SameBlank o o' := by
  refine ⟨congrArg (fun x => { x with data := [], lastApplied := none }) h,
    congrArg SecretObject.data h, ?_⟩
  have hcopies := congrArg (fun x => x.lastApplied.map fun la => (la.head, la.data, la.tail)) h
  simpa only [SecretObject.blank, Option.map_map, Function.comp_def] using hcopies

private theorem SameBlank.allAnnotations_iff (h : SameBlank o o') :
    o.allAnnotations = o'.allAnnotations ↔ o.lastApplied = o'.lastApplied := by
  have hann : o.annotations = o'.annotations := by
    simpa only using congrArg SecretObject.annotations h.rest
  unfold SecretObject.allAnnotations
  rw [hann, List.append_cancel_left_eq]
  have hcopies := h.copies
  cases hla : o.lastApplied with
  | none =>
    cases hla' : o'.lastApplied with
    | none => simp
    | some la' => simp
  | some la =>
    cases hla' : o'.lastApplied with
    | none => simp
    | some la' =>
      simp only [hla, hla', Option.map_some, Option.some.injEq, Prod.mk.injEq] at hcopies
      simp only [Option.map_some, Option.toList_some, List.cons.injEq, Prod.mk.injEq, true_and,
        and_true, Option.some.injEq]
      exact ⟨text_injective hcopies.1 hcopies.2.1 hcopies.2.2, fun heq => by rw [heq]⟩

private theorem map_fst_encodedData (o : SecretObject) :
    o.encodedData.map (·.1) = (blankValues o.data).map (·.1) := by
  simp [SecretObject.encodedData, blankValues, Function.comp_def]

private theorem decodedLen_lookup (d : List (String × List UInt8)) (key : String) :
    decodedLen (((d.map fun p => (p.1, Base64.encode p.2)).lookup key).getD "") =
      (((blankValues d).lookup key).getD []).length := by
  induction d with
  | nil => rfl
  | cons p d ih =>
    simp only [blankValues, List.map_cons, List.lookup_cons] at ih ⊢
    cases key == p.1 with
    | true => simp [decodedLen, Base64.decode_encode]
    | false => exact ih

private theorem SameBlank.summary_eq (h : SameBlank o o') : o.raw.summary = o'.raw.summary := by
  have hkeys : o.encodedData.map (·.1) = o'.encodedData.map (·.1) := by
    rw [map_fst_encodedData, map_fst_encodedData, h.data]
  have hcount : o.encodedData.length = o'.encodedData.length := by
    simpa using congrArg List.length hkeys
  have hrest := h.rest
  simp only [SecretObject.mk.injEq] at hrest
  simp only [RawSecret.summary, SecretObject.raw, hkeys, hcount, hrest]

private theorem SameBlank.detail_iff (h : SameBlank o o') :
    o.raw.detail = o'.raw.detail ↔ o.lastApplied = o'.lastApplied := by
  rw [← h.allAnnotations_iff]
  refine ⟨congrArg SecretDetail.annotations, fun hann => ?_⟩
  have hlabels : o.labels = o'.labels := by simpa only using congrArg SecretObject.labels h.rest
  have hkeys : o.encodedData.map (·.1) = o'.encodedData.map (·.1) := by
    rw [map_fst_encodedData, map_fst_encodedData, h.data]
  have hlens : ∀ key, decodedLen ((o.encodedData.lookup key).getD "") =
      decodedLen ((o'.encodedData.lookup key).getD "") := by
    intro key
    rw [SecretObject.encodedData, SecretObject.encodedData, decodedLen_lookup, decodedLen_lookup,
      h.data]
  have hsummary := h.summary_eq
  simp only [RawSecret.detail, SecretObject.raw, hkeys, hlens, hlabels, hann] at hsummary ⊢
  rw [hsummary]

private theorem scrub_toJson (o : SecretObject) :
    scrub "stringData" (scrub "data" o.toJson) =
      .obj ([("apiVersion", .str "v1")] ++
        Json.optional (blankValues o.data).isEmpty "data"
          (.ofMap (((blankValues o.data).map (·.1)).map fun key => (key, redactedValue))) ++
        Json.optional o.immutable.isNone "immutable" (.bool (o.immutable.getD false)) ++
        [("kind", .str "Secret"), ("metadata", o.metadata), ("type", .str o.type)]) := by
  have hempty : (blankValues o.data).isEmpty = o.data.isEmpty := by
    simp [blankValues]
  rw [hempty]
  unfold SecretObject.toJson Json.optional
  cases o.data.isEmpty <;> cases o.immutable.isNone <;>
    simp [scrub, Json.ofMap, SecretObject.encodedData, blankValues, Function.comp_def]

private theorem SameBlank.metadata_eq (h : SameBlank o o') (hla : o.lastApplied = o'.lastApplied) :
    o.metadata = o'.metadata := by
  have hrest := h.rest
  simp only [SecretObject.mk.injEq] at hrest
  simp only [SecretObject.metadata, h.allAnnotations_iff.mpr hla, hrest]

private theorem lastApplied_eq_of_metadata (h : SameBlank o o') (hm : o.metadata = o'.metadata) :
    o.lastApplied = o'.lastApplied := by
  rw [← h.allAnnotations_iff]
  have hmaps := congrArg (fun m => (Json.field "annotations" m).asMap) hm
  simp only [asMap_annotations] at hmaps
  exact Except.ok.inj hmaps

private theorem SameBlank.manifest_iff (h : SameBlank o o') :
    scrub "stringData" (scrub "data" o.toJson) = scrub "stringData" (scrub "data" o'.toJson) ↔
      o.lastApplied = o'.lastApplied := by
  rw [scrub_toJson, scrub_toJson]
  constructor
  · intro heq
    refine lastApplied_eq_of_metadata h ?_
    have hm := congrArg (Json.field "metadata") heq
    simpa [field_obj, List.lookup_append, lookup_optional, List.lookup_cons] using hm
  · intro hla
    have hrest := h.rest
    simp only [SecretObject.mk.injEq] at hrest
    rw [h.data, h.metadata_eq hla, hrest.2.2.1, hrest.2.2.2.1]

private theorem SameBlank.toJson_iff (h : SameBlank o o') :
    o.toJson = o'.toJson ↔ o.data = o'.data ∧ o.lastApplied = o'.lastApplied := by
  constructor
  · intro heq
    refine ⟨?_, lastApplied_eq_of_metadata h ?_⟩
    · have hmaps := congrArg (fun j => (Json.field "data" j).asMap) heq
      simp only [asMap_data] at hmaps
      exact encoded_injective (Except.ok.inj hmaps)
    · rw [← field_metadata, ← field_metadata, heq]
  · rintro ⟨hdata, hla⟩
    have hrest := h.rest
    simp only [SecretObject.mk.injEq] at hrest
    rw [SecretObject.toJson, SecretObject.toJson, SecretObject.encodedData,
      SecretObject.encodedData, hdata, h.metadata_eq hla, hrest.2.2.1, hrest.2.2.2.1]

end Objects

/-! ### Other values of the same lengths -/

private def bumpValues (d : List (String × List UInt8)) : List (String × List UInt8) :=
  d.map fun p => (p.1, p.2.modifyHead (· + 1))

private def bump (o : SecretObject) : SecretObject :=
  { o with
    data := bumpValues o.data
    lastApplied := o.lastApplied.map fun la => { la with data := bumpValues la.data } }

private theorem bumpValues_eq_self {d : List (String × List UInt8)} :
    d = bumpValues d ↔ NoValues d := by
  have hbyte : ∀ v : List UInt8, v = v.modifyHead (· + 1) ↔ v = [] := by
    intro v
    cases v with
    | nil => simp
    | cons b v =>
      simp only [List.modifyHead_cons, List.cons.injEq, and_true, reduceCtorEq, iff_false]
      intro hb
      have := congrArg UInt8.toNat hb
      rw [UInt8.toNat_add] at this
      have hlt := b.toNat_lt
      have hone : (1 : UInt8).toNat = 1 := rfl
      omega
  induction d with
  | nil => simp [bumpValues, NoValues]
  | cons p d ih =>
    have hcons : NoValues (p :: d) ↔ p.2 = [] ∧ NoValues d := List.forall_mem_cons
    rw [bumpValues, List.map_cons, List.cons.injEq, hcons]
    refine and_congr ?_ ih
    rw [← hbyte p.2, Prod.ext_iff]
    simp

private theorem blankValues_bumpValues (d : List (String × List UInt8)) :
    blankValues (bumpValues d) = blankValues d := by
  rw [bumpValues, blankValues, blankValues, List.map_map]
  refine List.map_congr_left fun p _ => ?_
  rcases p with ⟨key, _ | ⟨b, v⟩⟩ <;> simp [List.replicate_succ]

private theorem blank_bump (o : SecretObject) : (bump o).blank = o.blank := by
  simp only [bump, SecretObject.blank, blankValues_bumpValues, Option.map_map, Function.comp_def]

private theorem lastApplied_bump {o : SecretObject} :
    o.lastApplied = (bump o).lastApplied ↔ NoValues o.copies := by
  simp only [bump, SecretObject.copies]
  cases o.lastApplied with
  | none => simp [NoValues]
  | some la =>
    rw [Option.map_some, Option.some.injEq, Option.map_some, Option.getD_some,
      ← bumpValues_eq_self]
    exact ⟨fun h => congrArg LastApplied.data h, fun h => by rw [← h]⟩

/-! ### Stores -/

section Stores

variable {s s' : SecretStore}

private theorem alike_bump (s : SecretStore) : Alike s (s.map bump) := by
  rw [Alike, List.map_map]
  exact List.map_congr_left fun o _ => (blank_bump o).symm

private theorem get_map (f : SecretObject → SecretObject)
    (hf : ∀ o, (f o).namespaceName = o.namespaceName ∧ (f o).name = o.name) (s : SecretStore)
    (ns name : String) : SecretStore.get (s.map f) ns name = (s.get ns name).map f := by
  simp only [SecretStore.get, List.find?_map, Function.comp_def, hf]

private theorem list_map (f : SecretObject → SecretObject)
    (hf : ∀ o, (f o).namespaceName = o.namespaceName ∧ (f o).name = o.name) (s : SecretStore)
    (ns : Option String) : SecretStore.list (s.map f) ns = (s.list ns).map f := by
  simp only [SecretStore.list, List.filter_map, Function.comp_def, hf]

private theorem keeps_blank (o : SecretObject) :
    o.blank.namespaceName = o.namespaceName ∧ o.blank.name = o.name := ⟨rfl, rfl⟩

private theorem keeps_bump (o : SecretObject) :
    (bump o).namespaceName = o.namespaceName ∧ (bump o).name = o.name := ⟨rfl, rfl⟩

private theorem Alike.get (h : Alike s s') (ns name : String) :
    (s.get ns name).map (·.blank) = (s'.get ns name).map (·.blank) := by
  rw [← get_map _ keeps_blank, ← get_map _ keeps_blank, h]

private theorem Alike.list (h : Alike s s') (ns : Option String) :
    (s.list ns).map (·.blank) = (s'.list ns).map (·.blank) := by
  rw [← list_map _ keeps_blank, ← list_map _ keeps_blank, h]

private theorem map_eq_of_blank {α : Type} {f : SecretObject → α} {l l' : List SecretObject}
    (h : l.map (·.blank) = l'.map (·.blank))
    (hf : ∀ o ∈ l, ∀ o', SameBlank o o' → f o' = f o) : l'.map f = l.map f := by
  induction l generalizing l' with
  | nil => simpa using h
  | cons o l ih =>
    cases l' with
    | nil => simp at h
    | cons o' l' =>
      obtain ⟨ho, h⟩ := List.cons.inj h
      rw [List.map_cons, List.map_cons, hf o List.mem_cons_self o' (sameBlank_of_eq ho),
        ih h fun x hx => hf x (List.mem_cons_of_mem o hx)]

private theorem eq_of_noValues {d d' : List (String × List UInt8)}
    (h : blankValues d = blankValues d') (hno : NoValues d) : d = d' := by
  have hself : ∀ {l : List (String × List UInt8)}, NoValues l → blankValues l = l := by
    intro l hl
    refine (List.map_congr_left fun p hp => ?_).trans (List.map_id l)
    exact Prod.ext rfl (by simp [hl p hp])
  have hno' : NoValues d' := by
    intro p hp
    have hmem : (p.1, p.2.map fun _ => (0 : UInt8)) ∈ blankValues d :=
      h ▸ List.mem_map_of_mem hp
    obtain ⟨q, hq, heq⟩ := List.mem_map.mp hmem
    have hlen := congrArg (fun x => x.2.length) heq
    simpa [hno q hq] using hlen.symm
  rw [← hself hno, h, hself hno']

private theorem SameBlank.lastApplied_eq {o o' : SecretObject} (h : SameBlank o o')
    (hno : NoValues o.copies) : o.lastApplied = o'.lastApplied := by
  have hcopies := h.copies
  unfold SecretObject.copies at hno
  cases hla : o.lastApplied with
  | none =>
    rw [hla, Option.map_none, eq_comm, Option.map_eq_none_iff] at hcopies
    exact hcopies.symm
  | some la =>
    cases hla' : o'.lastApplied with
    | none => simp [hla, hla'] at hcopies
    | some la' =>
      simp only [hla, hla', Option.map_some, Option.some.injEq, Prod.mk.injEq,
        Option.getD_some] at hcopies hno
      obtain ⟨hhead, hdata, htail⟩ := hcopies
      have hdata := eq_of_noValues hdata hno
      cases la
      cases la'
      simp_all

private theorem one_iff {α : Type} {f : SecretObject → α} {ns name : String}
    (hf : ∀ o o', SameBlank o o' → (f o = f o' ↔ o.lastApplied = o'.lastApplied)) :
    (∀ s', Alike s s' → (s'.get ns name).map f = (s.get ns name).map f) ↔
      ∀ o ∈ s.get ns name, NoValues o.copies := by
  constructor
  · intro h o ho
    have hsame := h _ (alike_bump s)
    rw [get_map _ keeps_bump, ho, Option.map_some, Option.map_some, Option.map_some,
      Option.some.injEq] at hsame
    exact lastApplied_bump.mp ((hf o _ (sameBlank_of_eq (blank_bump o).symm)).mp hsame.symm)
  · intro h s' halike
    have hget := halike.get ns name
    cases ho : s.get ns name with
    | none =>
      rw [ho, Option.map_none, eq_comm, Option.map_eq_none_iff] at hget
      rw [hget]
    | some o =>
      rw [ho, Option.map_some, eq_comm, Option.map_eq_some_iff] at hget
      obtain ⟨o', ho', hblank⟩ := hget
      have hsame := sameBlank_of_eq hblank.symm
      rw [ho', Option.map_some, Option.map_some,
        (hf o o' hsame).mpr (hsame.lastApplied_eq (h o ho))]

private theorem listed_iff {ns : Option String} :
    (∀ s', Alike s s' → (s'.list ns).map (·.toJson) = (s.list ns).map (·.toJson)) ↔
      ∀ o ∈ s.list ns, NoValues o.data ∧ NoValues o.copies := by
  constructor
  · intro h o ho
    have hsame := h _ (alike_bump s)
    rw [list_map _ keeps_bump, List.map_map] at hsame
    have ho' := List.map_inj_left.mp hsame o ho
    have hiff := (sameBlank_of_eq (blank_bump o).symm).toJson_iff
    obtain ⟨hdata, hla⟩ := hiff.mp ho'.symm
    exact ⟨bumpValues_eq_self.mp hdata, lastApplied_bump.mp hla⟩
  · intro h s' halike
    refine map_eq_of_blank (halike.list ns) fun o ho o' hsame => ?_
    obtain ⟨hdata, hcopies⟩ := h o ho
    have hdata' := eq_of_noValues hsame.data hdata
    exact (hsame.toJson_iff.mpr ⟨hdata', hsame.lastApplied_eq hcopies⟩).symm

end Stores

/-! ### The answers -/

section Answers

variable {k : Kubectl} {ref : SecretRef}

/-- What was found, or the error that nothing was. -/
private def orError {α : Type} (e : String) : Option α → Except String α
  | some a => .ok a
  | none => .error e

private theorem orError_inj {α : Type} {e : String} {x y : Option α}
    (h : orError e x = orError e y) : x = y := by
  cases x <;> cases y <;> simp_all [orError]

private theorem target_getArgs (k : Kubectl) (ns : String) :
    k.target (getArgs "secrets" ns) = .listed (if ns = "" then none else some ns) := by
  unfold getArgs
  by_cases h : ns = ""
  · rw [if_pos h, if_pos h]
    rfl
  · rw [if_neg h, if_neg h]
    rfl

private theorem answer_secrets (s : SecretStore) (ns : String) :
    answer k s (.secrets ns) = .ok (.summaries
      ((s.list (if ns = "" then none else some ns)).map (·.raw.summary))) := by
  have hrun : k.run s (getArgs "secrets" ns) =
      .ok (listJson (s.list (if ns = "" then none else some ns))) := by
    rw [Kubectl.run, target_getArgs]
    rfl
  simp only [answer, secrets, hrun]
  change ((((listJson _).field "items").asList >>= _).mapError _ >>= _).map _ = _
  rw [decodeItems_listJson]
  simp [Except.map, Except.mapError, bind, Except.bind, pure, Except.pure, Function.comp_def]

private theorem answer_secret_one {ns name : String} (s : SecretStore)
    (h : k.target (secretArgs ref) = .one ns name) :
    answer k s (.secret ref) = orError (notFoundError (secretArgs ref) name)
      ((s.get ns name).map fun o => .detail o.raw.detail) := by
  simp only [answer, secret, Kubectl.run, h]
  cases s.get ns name with
  | none => rfl
  | some o =>
    change ((decodeSecret o.toJson).mapError _ >>= _).map _ = _
    rw [decodeSecret_toJson]
    rfl

private theorem answer_manifest_one {ns name : String} (s : SecretStore)
    (h : k.target (secretArgs ref) = .one ns name) :
    answer k s (.secretManifest ref) = orError (notFoundError (secretArgs ref) name)
      ((s.get ns name).map fun o => .manifest (scrub "stringData" (scrub "data" o.toJson))) := by
  simp only [answer, secretManifest, Kubectl.run, h]
  cases s.get ns name <;> rfl

private theorem answer_manifest_listed {ns : Option String} (s : SecretStore)
    (h : k.target (secretArgs ref) = .listed ns) :
    answer k s (.secretManifest ref) = .ok (.manifest (listJson (s.list ns))) := by
  simp only [answer, secretManifest, Kubectl.run, h]
  rfl

end Answers

/-- **When a read gives nothing away**: exactly if what it is about holds nothing where the read
would show it. -/
theorem unrevealing_iff (k : Kubectl) (s : SecretStore) (q : SecretQuery) :
    Unrevealing k s q ↔ Guarded k s q := by
  unfold Unrevealing
  cases q with
  | secrets ns =>
    refine iff_of_true (fun s' halike => ?_) trivial
    rw [answer_secrets, answer_secrets]
    rw [map_eq_of_blank (halike.list _) fun o _ o' hsame => hsame.summary_eq.symm]
  | secret ref =>
    cases ht : k.target (secretArgs ref) with
    | one ns name =>
      simp only [Guarded, ht, answer_secret_one _ ht]
      rw [← one_iff (f := fun o => SecretAnswer.detail o.raw.detail) fun o o' hsame => by
        rw [SecretAnswer.detail.injEq, hsame.detail_iff]]
      exact forall₂_congr fun s' _ => ⟨orError_inj, congrArg _⟩
    | listed ns =>
      refine iff_of_true (fun s' _ => ?_) (by simp [Guarded, ht])
      simp only [answer, secret, Kubectl.run, ht]
      rfl
    | refused message =>
      refine iff_of_true (fun s' _ => ?_) (by simp [Guarded, ht])
      simp only [answer, secret, Kubectl.run, ht]
  | secretManifest ref =>
    cases ht : k.target (secretArgs ref) with
    | one ns name =>
      simp only [Guarded, ht, answer_manifest_one _ ht]
      rw [← one_iff (f := fun o => SecretAnswer.manifest
        (scrub "stringData" (scrub "data" o.toJson))) fun o o' hsame => by
          rw [SecretAnswer.manifest.injEq, hsame.manifest_iff]]
      exact forall₂_congr fun s' _ => ⟨orError_inj, congrArg _⟩
    | listed ns =>
      simp only [Guarded, ht, answer_manifest_listed _ ht]
      rw [← listed_iff]
      refine forall₂_congr fun s' _ => ?_
      simp [listJson]
    | refused message =>
      refine iff_of_true (fun s' _ => ?_) (by simp [Guarded, ht])
      simp only [answer, secretManifest, Kubectl.run, ht]

/-- A cluster with one Secret, which holds this byte. -/
def demoSecrets (b : UInt8) : SecretStore :=
  [{ namespaceName := "kube-system", name := "admin", data := [("password", [b])] }]

def appliedSecret (b : UInt8) : SecretObject where
  namespaceName := "default"
  name := "db"
  data := [("password", [b])]
  lastApplied := some
    { head := "\x7b\"apiVersion\":\"v1\",\"data\":\x7b"
      data := [("password", [b])]
      tail := "\x7d,\"kind\":\"Secret\"\x7d\n" }

def demoKubectl : Kubectl where
  accepts _ := false

/-- The manifest of the "Secret" `-A`, and the detail of a Secret made by `kubectl apply`. -/
theorem reads_reveal :
    (Alike (demoSecrets 1) (demoSecrets 2) ∧
      answer demoKubectl (demoSecrets 1) (.secretManifest ⟨"default", "-A"⟩) ≠
        answer demoKubectl (demoSecrets 2) (.secretManifest ⟨"default", "-A"⟩)) ∧
    (Alike [appliedSecret 1] [appliedSecret 2] ∧
      answer demoKubectl [appliedSecret 1] (.secret ⟨"default", "db"⟩) ≠
        answer demoKubectl [appliedSecret 2] (.secret ⟨"default", "db"⟩)) := by
  refine ⟨⟨by decide +kernel, ?_⟩, ⟨by decide +kernel, ?_⟩⟩
  · have htarget : demoKubectl.target (secretArgs ⟨"default", "-A"⟩) = .listed none := by rfl
    rw [answer_manifest_listed _ htarget, answer_manifest_listed _ htarget]
    intro h
    have hlist : (SecretStore.list (demoSecrets 1) none).map (·.toJson) =
        (SecretStore.list (demoSecrets 2) none).map (·.toJson) := by
      simpa [listJson] using h
    have hdata := congrArg (List.map fun j => (Json.field "data" j).asMap) hlist
    simp only [List.map_map, Function.comp_def, asMap_data] at hdata
    exact absurd hdata (by decide +kernel)
  · have htarget : demoKubectl.target (secretArgs ⟨"default", "db"⟩) = .one "default" "db" := by rfl
    rw [answer_secret_one _ htarget, answer_secret_one _ htarget]
    intro h
    have hget : ∀ b, SecretStore.get [appliedSecret b] "default" "db" = some (appliedSecret b) :=
      fun _ => rfl
    have hdetail : (appliedSecret 1).raw.detail = (appliedSecret 2).raw.detail := by
      simpa only [hget, Option.map_some, Option.some.injEq, SecretAnswer.detail.injEq]
        using orError_inj h
    exact absurd hdetail (by decide +kernel)

end KaaS
