import DagScheduler.Library.Paths
import DagScheduler.Service.Server

/-! What the document root gives away, and which responses leave a connection open. -/

namespace DagScheduler.Service

open Library.Paths

variable {docRoot : String} {fs : FileSystem} {req : Request} {r : Response} {handled : Handled}

/-- The response may leave the connection open: the client asked for that, and no file is sent. -/
def Lasting (req : Request) (r : Response) : Prop :=
  req.keepAlive = true ∧ (r.status = .badRequest ∨ r.status = .notFound ∨ r.status = .ok ∧ req.method = .head)

lemma persistent_of_open (h : r.needEof = false) (hset : r.keepAlive = some req.keepAlive) :
    req.keepAlive = true := by
  unfold Response.needEof at h
  split_ifs at h
  simpa [Response.persistent, hset] using h

lemma serverErrorHandler_needEof (what : String) (req : Request) :
    (Detail.serverErrorHandler what req).needEof = true := rfl

namespace DocRootEndpoint

/-- A request that is looked up. -/
def Admits (req : Request) : Prop :=
  (req.method = .get ∨ req.method = .head) ∧ req.target.toList.head? = some '/' ∧ ¬ ['.', '.'] <:+: req.target.toList

/-- What the handler can do, case by case. -/
inductive Answers (docRoot : String) (fs : FileSystem) (req : Request) : Handled → Prop
  | refused (why : String) (hreq : ¬ Admits req) : Answers docRoot fs req
      ⟨[Detail.badRequestHandler why req], true, []⟩
  | missing (hreq : Admits req) (hopen : fs.openFile (Detail.pathCat docRoot req.target) =
      .error .noSuchFileOrDirectory) :
      Answers docRoot fs req ⟨[Detail.notFoundHandler req.target req], true, [Detail.pathCat docRoot req.target]⟩
  | failed (hreq : Admits req) (message : String)
      (hopen : fs.openFile (Detail.pathCat docRoot req.target) = .error (.other message)) :
      Answers docRoot fs req ⟨[Detail.serverErrorHandler message req], true, [Detail.pathCat docRoot req.target]⟩
  | head (hreq : Admits req) (hhead : req.method = .head) (file : File)
      (hopen : fs.openFile (Detail.pathCat docRoot req.target) = .ok file) :
      Answers docRoot fs req ⟨[headResponse (Detail.pathCat docRoot req.target) file.size req], true,
        [Detail.pathCat docRoot req.target]⟩
  | get (hreq : Admits req) (hget : req.method = .get) (file : File)
      (hopen : fs.openFile (Detail.pathCat docRoot req.target) = .ok file) :
      Answers docRoot fs req ⟨[getResponse file req], true, [Detail.pathCat docRoot req.target]⟩

lemma handleRequest_answers (docRoot : String) (fs : FileSystem) (req : Request) :
    Answers docRoot fs req (handleRequest docRoot fs req) := by
  unfold handleRequest
  by_cases hmethod : req.method ≠ .get ∧ req.method ≠ .head
  · rw [if_pos hmethod]
    exact .refused _ fun hreq => hreq.1.elim hmethod.1 hmethod.2
  rw [if_neg hmethod]
  by_cases htarget : req.target.toList.head? ≠ some '/' ∨ ['.', '.'] <:+: req.target.toList
  · rw [if_pos htarget]
    exact .refused _ fun hreq => htarget.elim (fun h => h hreq.2.1) hreq.2.2
  rw [if_neg htarget]
  have hreq : Admits req := by
    refine ⟨?_, not_not.mp fun h => htarget (.inl h), fun h => htarget (.inr h)⟩
    by_contra hno
    push Not at hno
    exact hmethod hno
  cases hopen : fs.openFile (Detail.pathCat docRoot req.target) with
  | error e =>
    cases e with
    | noSuchFileOrDirectory =>
      simp only [hopen]
      exact .missing hreq hopen
    | other message =>
      simp only [hopen]
      exact .failed hreq message hopen
  | ok file =>
    simp only [hopen]
    split_ifs with hhead
    · exact .head hreq hhead file hopen
    · exact .get hreq (hreq.1.resolve_right hhead) file hopen

lemma pathCat_below (hroot : docRoot ≠ "") (hreq : Admits req) (cwd : List (List Char)) :
    locate cwd docRoot.toList <+: locate cwd (Detail.pathCat docRoot req.target).toList := by
  obtain ⟨-, hslash, hup⟩ := hreq
  obtain ⟨q, hq⟩ : ∃ q, req.target.toList = '/' :: q := List.head?_eq_some_iff.mp hslash
  have hbelow : ¬ up <:+: q := fun h => hup (h.trans (hq ▸ (List.suffix_cons _ _).isInfix))
  have hne : docRoot.toList ≠ [] := by simpa using hroot
  unfold Detail.pathCat
  rw [if_neg (by simpa using hroot)]
  split_ifs with hlast
  · obtain ⟨p, hp⟩ := List.getLast?_eq_some_iff.mp hlast
    simp only [String.toList_append, String.toList_ofList, hq, hp, List.dropLast_concat]
    exact locate_separated hbelow
  · rw [String.toList_append, hq]
    exact locate_below hne hbelow

lemma Answers.opens (h : Answers docRoot fs req handled) {path : String} (hp : path ∈ handled.opened) :
    Admits req ∧ path = Detail.pathCat docRoot req.target := by
  cases h with
  | refused => exact absurd hp List.not_mem_nil
  | missing hreq => exact ⟨hreq, List.mem_singleton.mp hp⟩
  | failed hreq => exact ⟨hreq, List.mem_singleton.mp hp⟩
  | head hreq => exact ⟨hreq, List.mem_singleton.mp hp⟩
  | get hreq => exact ⟨hreq, List.mem_singleton.mp hp⟩

lemma getResponse_needEof (file : File) (req : Request) : (getResponse file req).needEof = true := by
  unfold getResponse
  cases file.content <;> rfl

lemma Answers.responds (h : Answers docRoot fs req handled) :
    handled.status = true ∧ ∃ r, handled.sent = [r] ∧ (r.needEof = false → Lasting req r) := by
  cases h with
  | refused why =>
    exact ⟨rfl, _, rfl, fun hopen => ⟨persistent_of_open hopen rfl, .inl rfl⟩⟩
  | missing =>
    exact ⟨rfl, _, rfl, fun hopen => ⟨persistent_of_open hopen rfl, .inr (.inl rfl)⟩⟩
  | failed hreq message => exact ⟨rfl, _, rfl, fun hopen => absurd hopen (by simp [serverErrorHandler_needEof])⟩
  | head hreq hhead => exact ⟨rfl, _, rfl, fun hopen => ⟨persistent_of_open hopen rfl, .inr (.inr ⟨rfl, hhead⟩)⟩⟩
  | get hreq hget file =>
    exact ⟨rfl, _, rfl, fun hopen => absurd hopen (by simp [getResponse_needEof])⟩

end DocRootEndpoint

end DagScheduler.Service
