import Rollbook.Schema
/-
  Rollbook.Schema.BuiltIn — the tables that are there without having been made.

  A database has a catalogue, under four names, and computed tables: what a JSON
  text holds, the words of a text, the pages of the file, and for every question
  that can be asked about the database or its settings the answers to it. Most
  questions have one answer, in a column with the question's name.
-/

namespace Rollbook.Schema

/-- A column of which nothing is demanded. -/
def looseColumn (type name : String) : Column := ⟨name, type, false, none, 0⟩

/-- A table without keys, of columns that have no type. -/
def untyped (name : String) (columns : List String) : TableShape :=
  ⟨name, columns.map (looseColumn ""), []⟩

def catalogueColumns : List Column :=
  ["type", "name", "tbl_name"].map (looseColumn "TEXT") ++
    [looseColumn "INT" "rootpage", looseColumn "TEXT" "sql"]

/-- The catalogue, and that of the tables that last as long as a connection. -/
def catalogues : List TableShape :=
  ["sqlite_master", "sqlite_schema", "sqlite_temp_master", "sqlite_temp_schema"].map
    fun name => ⟨name, catalogueColumns, []⟩

/-- The last number given in each table whose rows are numbered. -/
def lastNumbers : TableShape := untyped "sqlite_sequence" ["name", "seq"]

def jsonColumns : List String :=
  ["key", "value", "type", "atom", "id", "parent", "fullkey", "path"]

def pageColumns : List Column :=
  ["name", "path"].map (looseColumn "TEXT") ++
    [looseColumn "INTEGER" "pageno", looseColumn "TEXT" "pagetype"] ++
    ["ncell", "payload", "unused", "mx_payload", "pgoffset", "pgsize"].map (looseColumn "INTEGER")

/-- The questions with one answer. -/
def plainQuestions : List String :=
  ["analysis_limit", "application_id", "auto_vacuum", "automatic_index", "cache_size", "cache_spill",
   "cell_size_check", "checkpoint_fullfsync", "compile_options", "count_changes", "data_version",
   "defer_foreign_keys", "empty_result_callbacks", "encoding", "foreign_keys", "freelist_count",
   "full_column_names", "fullfsync", "hard_heap_limit", "ignore_check_constraints",
   "integrity_check", "journal_mode", "journal_size_limit", "legacy_alter_table", "locking_mode",
   "max_page_count", "optimize", "page_count", "page_size", "query_only", "quick_check",
   "read_uncommitted", "recursive_triggers", "reverse_unordered_selects", "schema_version",
   "secure_delete", "short_column_names", "soft_heap_limit", "synchronous", "temp_store", "threads",
   "trusted_schema", "user_version", "writable_schema"]

/-- The other questions, with the columns of their answers. -/
def questions : List (String × List String) :=
  [("busy_timeout", ["timeout"]),
   ("collation_list", ["seq", "name"]),
   ("database_list", ["seq", "name", "file"]),
   ("default_cache_size", ["cache_size"]),
   ("foreign_key_check", ["table", "rowid", "parent", "fkid"]),
   ("foreign_key_list", ["id", "seq", "table", "from", "to", "on_update", "on_delete", "match"]),
   ("function_list", ["name", "builtin", "type", "enc", "narg", "flags"]),
   ("index_info", ["seqno", "cid", "name"]),
   ("index_list", ["seq", "name", "unique", "origin", "partial"]),
   ("index_xinfo", ["seqno", "cid", "name", "desc", "coll", "key"]),
   ("module_list", ["name"]),
   ("pragma_list", ["name"]),
   ("table_info", ["cid", "name", "type", "notnull", "dflt_value", "pk"]),
   ("table_list", ["schema", "name", "type", "ncol", "wr", "strict"]),
   ("table_xinfo", ["cid", "name", "type", "notnull", "dflt_value", "pk", "hidden"])]

def computed : List TableShape :=
  [untyped "json_each" jsonColumns, untyped "json_tree" jsonColumns,
   untyped "fts3tokenize" ["input", "token", "start", "end", "position"],
   ⟨"dbstat", pageColumns, []⟩] ++
  (plainQuestions.map fun q => untyped ("pragma_" ++ q) [q]) ++
  questions.map fun (q, columns) => untyped ("pragma_" ++ q) columns

/-- The tables that are always there. -/
def builtIn : List TableShape := catalogues ++ computed

end Rollbook.Schema
