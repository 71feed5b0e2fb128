import Databasus.Common
import Databasus.Foundation.Exchange
import Databasus.Foundation.Table

/-
  A bucket and the requests that a client makes of it.

  The server stores faithfully: an object holds what was put
  under its key last, and a completed multipart upload holds
  its listed parts one after another.  Whether a request gets
  there, and whether its success is heard of, is decided by
  the answers of a session.

  Main declarations:
    * `Bucket`
    * `Bucket.find`
    * `Bucket.put`
    * `Bucket.findUpload`
    * `MultipartUpload.assemble`
    * `S3Call`
-/

------------------------------------------------------------
-- Objects
------------------------------------------------------------

namespace Databasus

namespace Storages

namespace S3

open Foundation

structure StoredObject where
  key : String
  content : Bytes
deriving DecidableEq, Repr

/- One part of an upload that is not completed yet. -/
structure InnerPart where
  number : Nat
  content : Bytes
deriving DecidableEq, Repr

structure MultipartUpload where
  uploadID : Nat
  key : String
  parts : List InnerPart
deriving DecidableEq, Repr

structure Bucket where
  objects : List StoredObject
  uploads : List MultipartUpload
  nextUploadID : Nat
deriving DecidableEq, Repr

namespace Bucket

variable (bucket : Bucket)

def find (key : String) : Option Bytes :=
  (Table.lookup StoredObject.key key bucket.objects).map
    StoredObject.content

/- A new object replaces the one under its key. -/
def put (key : String) (content : Bytes) : Bucket :=
  { bucket with
    objects :=
      { key := key, content := content } ::
        Table.deleteWhere (fun object => object.key = key)
          bucket.objects }

def remove (key : String) : Bucket :=
  { bucket with
    objects :=
      Table.deleteWhere (fun object => object.key = key)
        bucket.objects }

variable {bucket}

@[simp]
theorem find_put_self
    (key : String)
    (content : Bytes) :
    (bucket.put key content).find key = some content := by
  simp [find, put, Table.lookup]

theorem find_remove_of_ne
    {removed key : String}
    (hOther : key ≠ removed) :
    (bucket.remove removed).find key = bucket.find key := by
  have hRest :
      Table.lookup StoredObject.key key
          (Table.deleteWhere
            (fun object => object.key = removed)
            bucket.objects) =
        Table.lookup StoredObject.key key bucket.objects := by
    apply Table.lookup_deleteWhere
    intro row hSelected hKey
    have hRemoved : row.key = removed := by
      simpa using hSelected
    exact hOther (hKey.symm.trans hRemoved)
  simp only [find, remove]
  rw [hRest]

theorem find_put_of_ne
    {written key : String}
    (content : Bytes)
    (hOther : key ≠ written) :
    (bucket.put written content).find key =
      bucket.find key := by
  have hHead :
      (bucket.put written content).find key =
        (bucket.remove written).find key := by
    simp only [find, put, remove, Table.lookup]
    rw [List.find?_cons_of_neg (by simpa using hOther.symm)]
  rw [hHead, find_remove_of_ne hOther]

theorem find_remove_self
    (key : String) :
    (bucket.remove key).find key = none := by
  simp only [find, remove, Option.map_eq_none_iff,
    Table.lookup_eq_none_iff, Table.mem_deleteWhere_iff]
  intro row hKept
  simpa using hKept.2

end Bucket

------------------------------------------------------------
-- Multipart Uploads
------------------------------------------------------------

namespace MultipartUpload

variable {upload : MultipartUpload}

/- The part that was put under the number last. -/
def findPart
    (upload : MultipartUpload)
    (number : Nat) : Option InnerPart :=
  Table.lookup InnerPart.number number upload.parts

/- The listed parts, one after another. -/
def assemble
    (upload : MultipartUpload) : List Nat → Option Bytes
  | [] => some []
  | number :: numbers => do
      let part ← upload.findPart number
      let rest ← upload.assemble numbers
      some (part.content ++ rest)

def putPart
    (number : Nat)
    (content : Bytes)
    (upload : MultipartUpload) : MultipartUpload :=
  { upload with
    parts :=
      { number := number, content := content } ::
        upload.parts }

theorem assemble_append
    {numbers more : List Nat}
    {first second : Bytes}
    (hFirst : upload.assemble numbers = some first)
    (hSecond : upload.assemble more = some second) :
    upload.assemble (numbers ++ more) =
      some (first ++ second) := by
  induction numbers generalizing first with
  | nil =>
      have hEmpty : [] = first := Option.some.inj hFirst
      rw [← hEmpty]
      exact hSecond
  | cons number numbers ih =>
      simp only [assemble, Option.bind_eq_bind,
        Option.bind_eq_some_iff, Option.some.injEq] at hFirst
      rcases hFirst with ⟨part, hPart, rest, hRest, hFirst⟩
      simp only [List.cons_append, assemble, hPart,
        ih hRest, Option.bind_eq_bind, Option.bind_some]
      rw [← hFirst, List.append_assoc]

/- A part of another number leaves the listed ones alone. -/
theorem assemble_putPart_of_notMem
    {numbers : List Nat}
    {number : Nat}
    (content : Bytes)
    (hNew : number ∉ numbers) :
    (upload.putPart number content).assemble numbers =
      upload.assemble numbers := by
  induction numbers with
  | nil => rfl
  | cons listed numbers ih =>
      have hOther : ¬ number = listed := by
        rintro rfl
        exact hNew List.mem_cons_self
      have hRest :=
        ih fun hMember =>
          hNew (List.mem_cons_of_mem listed hMember)
      have hFind :
          (upload.putPart number content).findPart listed =
            upload.findPart listed := by
        simp [findPart, putPart, Table.lookup, hOther]
      simp only [assemble, hFind, hRest]

theorem assemble_putPart_self
    (number : Nat)
    (content : Bytes) :
    (upload.putPart number content).assemble [number] =
      some content := by
  simp [assemble, findPart, putPart, Table.lookup]

end MultipartUpload

namespace Bucket

variable (bucket : Bucket)

/- Is this the upload of the key with the number? -/
def isUpload
    (key : String)
    (uploadID : Nat)
    (upload : MultipartUpload) : Bool :=
  upload.key = key && upload.uploadID = uploadID

def findUpload
    (key : String)
    (uploadID : Nat) : Option MultipartUpload :=
  bucket.uploads.find? (isUpload key uploadID)

def initiate (key : String) : Bucket :=
  { bucket with
    uploads :=
      { uploadID := bucket.nextUploadID
        key := key
        parts := [] } :: bucket.uploads
    nextUploadID := bucket.nextUploadID + 1 }

def putPart
    (key : String)
    (uploadID number : Nat)
    (content : Bytes) : Bucket :=
  { bucket with
    uploads :=
      Table.updateWhere (isUpload key uploadID)
        (MultipartUpload.putPart number content)
        bucket.uploads }

def abort (key : String) (uploadID : Nat) : Bucket :=
  { bucket with
    uploads :=
      Table.deleteWhere (isUpload key uploadID)
        bucket.uploads }

variable {bucket}

theorem findUpload_initiate
    (key : String) :
    (bucket.initiate key).findUpload key
        bucket.nextUploadID =
      some
        { uploadID := bucket.nextUploadID
          key := key
          parts := [] } := by
  simp [findUpload, initiate, isUpload]

theorem findUpload_putPart
    {key : String}
    {uploadID : Nat}
    {upload : MultipartUpload}
    (number : Nat)
    (content : Bytes)
    (hUpload :
      bucket.findUpload key uploadID = some upload) :
    (bucket.putPart key uploadID number content).findUpload
        key uploadID =
      some (upload.putPart number content) := by
  have hSelected : isUpload key uploadID upload = true :=
    List.find?_some hUpload
  have hSame :
      ((isUpload key uploadID) ∘ fun row =>
          if isUpload key uploadID row then
            row.putPart number content
          else
            row) =
        isUpload key uploadID := by
    funext row
    by_cases hRow : isUpload key uploadID row = true
    · simp only [Function.comp_apply, hRow, if_true]
      exact hRow
    · simp [hRow]
  simp only [findUpload, putPart, Table.updateWhere]
  rw [List.find?_map, hSame]
  simp only [findUpload] at hUpload
  simp [hUpload, hSelected]

@[simp]
theorem find_initiate
    (key wanted : String) :
    (bucket.initiate key).find wanted = bucket.find wanted :=
  rfl

@[simp]
theorem find_putPart
    (key wanted : String)
    (uploadID number : Nat)
    (content : Bytes) :
    (bucket.putPart key uploadID number content).find wanted =
      bucket.find wanted :=
  rfl

@[simp]
theorem find_abort
    (key wanted : String)
    (uploadID : Nat) :
    (bucket.abort key uploadID).find wanted =
      bucket.find wanted :=
  rfl

end Bucket

end S3

end Storages

end Databasus
